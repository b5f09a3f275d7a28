import VastNC.Intake

/-! What is put aside by a matcher that is joining comes back unaltered in the runs whose steps meet a
condition, and in no others. -/

namespace VastNC

namespace Intake

variable {s : Intake}

/-- How a step changes what has been put aside; `ok` says whether it does no harm. -/
inductive Change (s s' : Intake) (ok : Prop) : Prop where
  | putAside (app : UInt16) (msg : Message) (curr : Nat) (hok : ok ↔ app = 0)
      (underway : s'.underway = s.underway ++ [⟨0, msg, curr⟩])
      (arrived : s'.arrived = s.arrived ++ [⟨app, msg, curr⟩])
  | moved (arrived : s'.arrived = s.arrived) (kept : ok → s'.underway = s.underway)
      (lost : ¬ ok → Impaired Dispatched.weight Dispatched.priority s'.underway s.underway)

/-- A type has got lost, or a target, or the order. -/
def Harmed (s : Intake) : Prop :=
  (∃ d ∈ s.arrived, d.appMsgtype ≠ 0) ∨ Impaired Dispatched.weight Dispatched.priority s.underway s.arrived

namespace Change

variable {s' : Intake} {ok : Prop}

theorem intact (h : s.Change s' ok) (hok : ok) (hs : s.underway = s.arrived) : s'.underway = s'.arrived := by
  cases h with
  | putAside app msg curr hiff hu ha => rw [hu, ha, hs, hiff.mp hok]
  | moved ha hkept hlost => rw [ha, hkept hok, hs]

theorem harmed (h : s.Change s' ok) (hok : ¬ ok) (hs : s.underway = s.arrived) : s'.Harmed := by
  cases h with
  | putAside app msg curr hiff hu ha =>
    refine .inl ⟨⟨app, msg, curr⟩, ?_, fun hz => hok (hiff.mpr hz)⟩
    rw [ha]
    simp
  | moved ha hkept hlost =>
    refine .inr ?_
    rw [ha, ← hs]
    exact hlost hok

theorem stays_harmed (h : s.Change s' ok) (hs : s.Harmed) : s'.Harmed := by
  cases h with
  | putAside app msg curr hiff hu ha =>
    rcases hs with ⟨d, hd, hne⟩ | hs
    · refine .inl ⟨d, ?_, hne⟩
      rw [ha]
      exact List.mem_append_left _ hd
    · refine .inr ?_
      rw [hu, ha]
      -- the same is added on both sides but for the type, which counts for nothing here
      have happ := hs.append_right [⟨0, msg, curr⟩]
      rcases happ with hlt | ⟨hw, hl, hk⟩
      · refine .inl ?_
        simpa [Dispatched.weight] using hlt
      · refine .inr ⟨?_, ?_, ?_⟩
        · simpa [Dispatched.weight] using hw
        · simpa using hl
        · simpa [Dispatched.priority] using hk
  | moved ha hkept hlost =>
    rw [Harmed, ha]
    refine hs.imp id (fun hs => ?_)
    by_cases hok : ok
    · rw [hkept hok]
      exact hs
    · exact (hlost hok).trans hs

theorem congr {t : Intake} {ok' : Prop} (h : t.Change s' ok) (hu : t.underway = s.underway)
    (ha : t.arrived = s.arrived) (hok : ok ↔ ok') : s.Change s' ok' := by
  rw [← hok]
  cases h with
  | putAside app msg curr hiff hu' ha' => exact .putAside app msg curr hiff (by rw [hu', hu]) (by rw [ha', ha])
  | moved ha' hkept hlost =>
    exact .moved (ha'.trans ha) (fun hk => (hkept hk).trans hu) (fun hk => by rw [← hu]; exact hlost hk)

end Change

theorem Sound.not_intact (h : s.Sound) (hs : s.Harmed) : s.underway ≠ s.arrived := by
  intro he
  rcases hs with ⟨d, hd, hne⟩ | hs
  · rw [← he, underway, List.mem_append] at hd
    rcases hd with hd | hd
    · exact hne (h.taken d hd)
    · obtain ⟨m, hm, rfl⟩ := List.mem_map.mp hd
      have hres : m.Resendable := by
        rcases List.mem_append.mp hm with hm | hm
        · obtain ⟨e, hw, rfl⟩ := List.mem_map.mp hm
          obtain ⟨he, hr⟩ := List.mem_filter.mp hw
          exact (h.waiting e he hr).2
        · exact h.deferred m hm
      exact hne (msgtype_small hres.upper).1
  · rw [he] at hs
    exact Impaired.irrefl _ hs

section Handle

variable {resent : Bool} {m : Message}

/-- What `processMessages` hands to the matcher. -/
def Handed (m : Message) : Prop :=
  m.msgtype = VastNet.disconnectType ∨
    m.fromId ≠ 0 ∧ m.targets ≠ [] ∧ m.msggroup = groupMatcher ∧ m.curr = 0

theorem course_deferred {type : UInt16} (h : s.course type = .deferred) :
    vonMaxMsg ≤ type ∧ type ≠ VastNet.disconnectType := by
  simp only [course] at h
  split_ifs at h with h1 h2 h3 h4 h5
  exact ⟨UInt16.not_lt.mp h3, h2⟩

theorem course_joined (hs : s.state = .joined) (hp : s.peer = .joined) (type : UInt16) : s.course type =
    if type ≠ VastNet.disconnectType ∧ type < vonMaxMsg then .toPeer else .passed := by
  simp only [course, hs, hp]
  by_cases hd : type = VastNet.disconnectType
  · simp [hd]
  · by_cases hv : type < vonMaxMsg <;> simp [hd, hv]

theorem dispatch_stripped (m : Message) :
    ({ m with msgtype := vastMsgtype m.msgtype } : Message).dispatch = ⟨0, m.dispatch.msg, m.curr⟩ := by
  obtain ⟨happ, hvast⟩ := msgtype_small (vastMsgtype_lt m.msgtype)
  simp [Message.dispatch, Message.content, happ, hvast]

theorem handleMessage_toPeer (hc : s.course (vastMsgtype m.msgtype) = .toPeer) : s.handleMessage resent m = s := by
  simp [handleMessage, hc]

theorem handleMessage_rejected (hc : s.course (vastMsgtype m.msgtype) = .rejected) :
    s.handleMessage resent m = s := by
  simp [handleMessage, hc]

theorem handleMessage_deferred (hc : s.course (vastMsgtype m.msgtype) = .deferred) : s.handleMessage resent m =
    { s with
      deferred := s.deferred ++ [{ m with msgtype := vastMsgtype m.msgtype }]
      arrived := if resent then s.arrived else s.arrived ++ [m.dispatch] } := by
  simp [handleMessage, hc]

theorem handleMessage_passed (hc : s.course (vastMsgtype m.msgtype) = .passed) : s.handleMessage resent m =
    { s.flush with taken := if resent then s.taken ++ [m.dispatch] else s.taken } := by
  simp [handleMessage, hc, flush]

theorem Handed.resendable (h : Handed m) (hc : s.course (vastMsgtype m.msgtype) = .deferred) :
    ({ m with msgtype := vastMsgtype m.msgtype } : Message).Resendable := by
  obtain ⟨hlower, hne⟩ := course_deferred hc
  rcases h with h | ⟨hf, ht, hg, hcurr⟩
  · rw [h] at hne
    exact absurd rfl hne
  · exact ⟨hf, ht, hg, hlower, vastMsgtype_lt _, hcurr⟩

theorem Sound.handleMessage (h : s.Sound) (hm : Handed m)
    (hr : resent = true → appMsgtype m.msgtype = 0) : (s.handleMessage resent m).Sound := by
  cases hc : s.course (vastMsgtype m.msgtype) with
  | toPeer => rwa [handleMessage_toPeer hc]
  | rejected => rwa [handleMessage_rejected hc]
  | deferred =>
    rw [handleMessage_deferred hc]
    refine ⟨h.stored, h.waiting, fun x hx => ?_, h.taken⟩
    rcases List.mem_append.mp hx with hx | hx
    · exact h.deferred x hx
    · rw [List.mem_singleton.mp hx]
      exact hm.resendable hc
  | passed =>
    rw [handleMessage_passed hc]
    refine ⟨h.flush.stored, h.flush.waiting, h.flush.deferred, fun d hd => ?_⟩
    dsimp only at hd
    split at hd
    · rename_i hres
      rcases List.mem_append.mp hd with hd | hd
      · exact h.taken d hd
      · rw [List.mem_singleton.mp hd]
        exact hr hres
    · exact h.taken d hd

theorem Sound.change_handleMessage (h : s.Sound) (m : Message) :
    s.Change (s.handleMessage false m) (s.Takes m) := by
  obtain ⟨hkeep, hharm⟩ := h.flush_cases
  cases hc : s.course (vastMsgtype m.msgtype) with
  | toPeer =>
    have hok : s.Takes m := by simp [Takes, hc]
    rw [handleMessage_toPeer hc]
    exact .moved rfl (fun _ => rfl) (fun hn => absurd hok hn)
  | rejected =>
    have hok : s.Takes m := by simp [Takes, hc]
    rw [handleMessage_rejected hc]
    exact .moved rfl (fun _ => rfl) (fun hn => absurd hok hn)
  | deferred =>
    have hok : s.Takes m ↔ appMsgtype m.msgtype = 0 := by simp [Takes, hc]
    rw [handleMessage_deferred hc]
    refine .putAside (appMsgtype m.msgtype) m.dispatch.msg m.curr hok ?_ rfl
    rw [underway, underway, pending, pending, ← List.append_assoc, List.map_append, List.map_singleton,
      dispatch_stripped, ← List.append_assoc]
    rfl
  | passed =>
    have hok : s.Takes m ↔ s.KeepsDeferred := by simp [Takes, hc]
    rw [handleMessage_passed hc, hok]
    refine .moved rfl (fun hk => ?_) (fun hk => ?_)
    · exact congrArg (s.taken ++ ·) (hkeep hk)
    · exact (hharm hk).append_left s.taken

end Handle

section Fetch

variable {e : Received} {rest : StableQueue (fun e : Received => e.msg.priority.toNat)}

theorem fetch_none (hp : s.received.pop = none) : s.fetch = (s, none) := by
  simp [fetch, hp]

theorem fetch_fst (hp : s.received.pop = some (e, rest)) :
    ∃ queue, queue.hostId = s.queue.hostId ∧ s.fetch.1 = { s with received := rest, queue } := by
  simp only [fetch, hp]
  split_ifs
  · exact ⟨s.queue, rfl, rfl⟩
  · exact ⟨s.queue, rfl, rfl⟩
  · refine ⟨s.queue.learn e.fromhost e.msg, ?_, rfl⟩
    rw [MessageQueue.learn]
    split <;> rfl

theorem fetch_frame (s : Intake) :
    s.fetch.1.queue.hostId = s.queue.hostId ∧ s.fetch.1.state = s.state ∧ s.fetch.1.peer = s.peer := by
  cases hp : s.received.pop with
  | none =>
    rw [fetch_none hp]
    exact ⟨rfl, rfl, rfl⟩
  | some a =>
    obtain ⟨queue, hhost, hf⟩ := fetch_fst (show s.received.pop = some (a.1, a.2) from hp)
    rw [hf]
    exact ⟨hhost, rfl, rfl⟩

theorem fetch_snd (hp : s.received.pop = some (e, rest)) {resent : Bool} {m : Message}
    (hm : s.fetch.2 = some (resent, m)) (hcurr : e.msg.curr = 0) : resent = e.resent ∧ Handed m := by
  simp only [fetch, hp] at hm
  split_ifs at hm with hd hf
  · obtain ⟨rfl, rfl⟩ := Prod.mk.inj (Option.some.inj hm)
    exact ⟨rfl, .inl hd⟩
  · obtain ⟨m', hm', he⟩ := Option.map_eq_some_iff.mp hm
    obtain ⟨hproc, hgroup⟩ := Option.filter_eq_some_iff.mp hm'
    obtain ⟨rfl, rfl⟩ := Prod.mk.inj he
    obtain ⟨hr, hne⟩ := MessageQueue.processMessage_some hproc
    rw [hr] at hgroup hne ⊢
    exact ⟨rfl, .inr ⟨hf, hne, beq_iff_eq.mp hgroup, hcurr⟩⟩

def popped (s : Intake) (rest : StableQueue (fun e : Received => e.msg.priority.toNat)) : Intake :=
  { s with received := rest }

/-- What comes back is handed to the matcher with the targets that this host takes for its own. -/
theorem fetch_resent (hp : s.received.pop = some (e, rest)) (hr : e.resent = true)
    (hhost : e.fromhost = s.queue.hostId) (hres : e.msg.Resendable) :
    s.fetch = (s.popped rest, if (s.queue.localPart e.msg).targets = [] then none
      else some (true, s.queue.localPart e.msg)) := by
  have htype : e.msg.msgtype ≠ VastNet.disconnectType := by
    intro he
    have hlower := hres.lower
    rw [he] at hlower
    exact absurd hlower (by decide)
  have hlearn : s.queue.learn e.fromhost e.msg = s.queue := by
    rw [MessageQueue.learn, if_neg (fun h => h.1 hhost)]
  have hfrom : ¬ e.msg.fromId = netIdUnassigned := hres.fromId
  have hproc : s.queue.processMessage e.fromhost e.msg =
      if (s.queue.localPart e.msg).targets = [] then none else some (s.queue.localPart e.msg) := by
    rw [MessageQueue.processMessage, if_neg (fun h => h.elim htype hfrom), hlearn]
    rfl
  have hgroup : (s.queue.localPart e.msg).msggroup = groupMatcher := hres.msggroup
  simp only [fetch, hp, if_neg htype, if_neg hfrom, hlearn, hproc, hr, popped]
  by_cases hl : (s.queue.localPart e.msg).targets = []
  · simp [hl]
  · simp [hl, Option.filter, hgroup]

theorem receive_none (hf : s.fetch.2 = none) : s.receive = s.fetch.1 := by
  have hpair : s.fetch = (s.fetch.1, none) := by rw [← hf]
  rw [receive, hpair]

theorem receive_some {resent : Bool} {m : Message} (hf : s.fetch.2 = some (resent, m)) :
    s.receive = s.fetch.1.handleMessage resent m := by
  have hpair : s.fetch = (s.fetch.1, some (resent, m)) := by rw [← hf]
  rw [receive, hpair]

theorem mem_of_pop (hp : s.received.pop = some (e, rest)) : e ∈ s.received.items := by
  rw [StableQueue.items_of_pop hp]
  exact List.mem_cons_self

theorem Sound.fetch (h : s.Sound) : s.fetch.1.Sound := by
  cases hp : s.received.pop with
  | none =>
    rw [fetch_none hp]
    exact h
  | some a =>
    obtain ⟨e, rest⟩ := a
    have hitems := StableQueue.items_of_pop hp
    have hmem : ∀ x ∈ rest.items, x ∈ s.received.items := fun x hx => by
      rw [hitems]
      exact List.mem_cons_of_mem _ hx
    obtain ⟨queue, hhost, hf⟩ := fetch_fst hp
    rw [hf]
    refine ⟨fun x hx => h.stored x (hmem x hx), fun x hx hr => ?_, h.deferred, h.taken⟩
    dsimp only
    rw [hhost]
    exact h.waiting x (hmem x hx) hr

theorem Sound.fetched (h : s.Sound) {resent : Bool} {m : Message} (hm : s.fetch.2 = some (resent, m)) :
    Handed m ∧ (resent = true → appMsgtype m.msgtype = 0) := by
  cases hp : s.received.pop with
  | none =>
    rw [fetch_none hp] at hm
    cases hm
  | some a =>
    obtain ⟨e, rest⟩ := a
    obtain ⟨hres, hh⟩ := fetch_snd hp hm (h.stored e (mem_of_pop hp))
    refine ⟨hh, fun hr => ?_⟩
    rw [hres] at hr
    obtain ⟨hhost, hrs⟩ := h.waiting e (mem_of_pop hp) hr
    rw [fetch_resent hp hr hhost hrs] at hm
    dsimp only at hm
    split at hm
    · cases hm
    · obtain ⟨-, rfl⟩ := Prod.mk.inj (Option.some.inj hm)
      exact (msgtype_small hrs.upper).1

theorem Sound.step (h : s.Sound) (e : IntakeEvent) : (s.step e).Sound := by
  cases e with
  | arrive fromhost msg =>
    refine ⟨fun x hx => ?_, fun x hx hr => ?_, h.deferred, h.taken⟩ <;>
      rcases (List.mem_orderedInsert _).mp hx with rfl | hx
    · rfl
    · exact h.stored x hx
    · cases hr
    · exact h.waiting x hx hr
  | receive =>
    rw [Intake.step]
    cases hf : s.fetch.2 with
    | none =>
      rw [receive_none hf]
      exact h.fetch
    | some a =>
      obtain ⟨hh, hr⟩ := h.fetched hf
      rw [receive_some hf]
      exact h.fetch.handleMessage hh hr
  | nodes state peer => exact ⟨h.stored, h.waiting, h.deferred, h.taken⟩
  | network id2host defaultHost retry => exact ⟨h.stored, h.waiting, h.deferred, h.taken⟩

theorem fetch_underway (hp : s.received.pop = some (e, rest)) (hr : e.resent = false) :
    s.fetch.1.underway = s.underway ∧ s.fetch.1.arrived = s.arrived := by
  obtain ⟨queue, -, hf⟩ := fetch_fst hp
  have hitems := StableQueue.items_of_pop hp
  rw [hf]
  simp [underway, pending, waiting, hitems, hr]

theorem underway_popped (hp : s.received.pop = some (e, rest)) (hr : e.resent = true) :
    s.underway = s.taken ++ e.msg.dispatch :: (s.popped rest).pending.map Message.dispatch := by
  simp [underway, pending, waiting, StableQueue.items_of_pop hp, hr, popped]

theorem course_popped (hs : s.state = .joined) (hpeer : s.peer = .joined) (hres : e.msg.Resendable) :
    (s.popped rest).course (vastMsgtype e.msg.msgtype) = .passed := by
  obtain ⟨-, hvast⟩ := msgtype_small hres.upper
  rw [course_joined (s := s.popped rest) hs hpeer, hvast, if_neg]
  exact fun h => absurd h.2 (UInt16.not_lt.mpr hres.lower)

theorem Sound.popped_sound (h : s.Sound) (hp : s.received.pop = some (e, rest)) (hr : e.resent = true) :
    (s.popped rest).Sound := by
  obtain ⟨hhost, hres⟩ := h.waiting e (mem_of_pop hp) hr
  have hfetch := h.fetch
  rwa [fetch_resent hp hr hhost hres] at hfetch

theorem Sound.unaltering_resent_iff (h : s.Sound) (hp : s.received.pop = some (e, rest)) (hr : e.resent = true)
    (hl : (s.queue.localPart e.msg).targets ≠ [])
    (hc : (s.popped rest).course (vastMsgtype (s.queue.localPart e.msg).msgtype) = .passed) :
    s.Unaltering .receive ↔
      (∀ t ∈ e.msg.targets, s.queue.isLocal t = true) ∧ (s.popped rest).KeepsDeferred := by
  obtain ⟨hhost, hres⟩ := h.waiting e (mem_of_pop hp) hr
  have hf := fetch_resent hp hr hhost hres
  rw [if_neg hl] at hf
  have htakes : (s.popped rest).Takes (s.queue.localPart e.msg) ↔ (s.popped rest).KeepsDeferred := by
    simp [Takes, hc]
  rw [← htakes]
  constructor
  · intro hok
    have ht := hok.2 true (s.queue.localPart e.msg) (by rw [hf])
    rw [hf] at ht
    exact ⟨hok.1 e rest hp hr, ht⟩
  · rintro ⟨hloc, ht⟩
    refine ⟨fun e' rest' hp' _ => ?_, fun resent msg hm => ?_⟩
    · rw [hp] at hp'
      obtain ⟨rfl, -⟩ := Prod.mk.inj (Option.some.inj hp')
      exact hloc
    · rw [hf] at hm
      obtain ⟨-, rfl⟩ := Prod.mk.inj (Option.some.inj hm)
      rw [hf]
      exact ht

/-- A message that comes back is dispatched behind what has been dispatched before. -/
theorem Sound.change_resent (h : s.Sound) (hp : s.received.pop = some (e, rest)) (hr : e.resent = true)
    (hs : s.state = .joined) (hpeer : s.peer = .joined) : s.Change s.receive (s.Unaltering .receive) := by
  obtain ⟨hhost, hres⟩ := h.waiting e (mem_of_pop hp) hr
  have hf := fetch_resent hp hr hhost hres
  have hc : (s.popped rest).course (vastMsgtype (s.queue.localPart e.msg).msgtype) = .passed :=
    course_popped hs hpeer hres
  obtain ⟨hkeep, hharm⟩ := (h.popped_sound hp hr).flush_cases
  by_cases hl : (s.queue.localPart e.msg).targets = []
  · -- none of its targets is left
    rw [receive_none (by rw [hf, if_pos hl]), hf]
    refine .moved rfl (fun hok => ?_) (fun _ => ?_)
    · rw [MessageQueue.localPart, List.filter_eq_self.mpr (hok.1 e rest hp hr)] at hl
      exact absurd hl hres.targets
    · rw [underway_popped hp hr]
      exact Impaired.append_left s.taken (.inl (by simp [Dispatched.weight]))
  · have hrec : s.receive = { (s.popped rest).flush with
        taken := s.taken ++ [(s.queue.localPart e.msg).dispatch] } := by
      have hsome : s.fetch.2 = some (true, s.queue.localPart e.msg) := by rw [hf, if_neg hl]
      rw [receive_some hsome, hf, handleMessage_passed hc]
      rfl
    have hu : s.receive.underway = s.taken ++
        (s.queue.localPart e.msg).dispatch :: (s.popped rest).flush.pending.map Message.dispatch := by
      rw [hrec]
      exact (List.append_cons _ _ _).symm
    rw [h.unaltering_resent_iff hp hr hl hc]
    refine .moved (by rw [hrec]; rfl) (fun hk => ?_) (fun hk => ?_) <;> rw [hu, underway_popped hp hr] <;>
      rcases s.queue.localPart_cases e.msg with ⟨hloc, he⟩ | ⟨hloc, hlt⟩
    · rw [he, hkeep hk.2]
    · exact absurd hk.1 hloc
    · rw [he]
      exact ((hharm (fun hk' => hk ⟨hloc, hk'⟩)).append_left [e.msg.dispatch]).append_left s.taken
    · -- a target is lost, whatever becomes of the others
      have hfirst : Impaired Dispatched.weight Dispatched.priority
          ((s.queue.localPart e.msg).dispatch :: (s.popped rest).pending.map Message.dispatch)
          (e.msg.dispatch :: (s.popped rest).pending.map Message.dispatch) := by
        refine .inl ?_
        simp only [List.map_cons, List.sum_cons, Dispatched.weight, Message.dispatch, Message.content]
        omega
      by_cases hk' : (s.popped rest).KeepsDeferred
      · rw [hkeep hk']
        exact hfirst.append_left s.taken
      · exact (((hharm hk').append_left [_]).trans hfirst).append_left s.taken

theorem Sound.change_first (h : s.Sound) (hp : s.received.pop = some (e, rest)) (hr : e.resent = false) :
    s.Change s.receive (s.Unaltering .receive) := by
  obtain ⟨hu, ha⟩ := fetch_underway hp hr
  have hold : ∀ e' rest', s.received.pop = some (e', rest') → e'.resent = true →
      ∀ t ∈ e'.msg.targets, s.queue.isLocal t = true := by
    intro e' rest' hp' hr'
    rw [hp] at hp'
    obtain ⟨rfl, -⟩ := Prod.mk.inj (Option.some.inj hp')
    rw [hr] at hr'
    cases hr'
  cases hf : s.fetch.2 with
  | none =>
    have hok : s.Unaltering .receive := by
      refine ⟨hold, fun resent msg hm => ?_⟩
      rw [hf] at hm
      cases hm
    rw [receive_none hf]
    exact .moved ha (fun _ => hu) (fun hn => absurd hok hn)
  | some b =>
    obtain ⟨resent, m⟩ := b
    obtain ⟨rfl, -⟩ := fetch_snd hp hf (h.stored e (mem_of_pop hp))
    have hok : s.fetch.1.Takes m ↔ s.Unaltering .receive := by
      rw [Unaltering, and_iff_right hold, hf]
      constructor
      · intro ht resent msg hm
        obtain ⟨-, rfl⟩ := Prod.mk.inj (Option.some.inj hm)
        exact ht
      · exact fun ht => ht e.resent m rfl
    rw [receive_some hf, hr]
    exact (h.fetch.change_handleMessage m).congr hu ha hok

theorem change_arrive (s : Intake) (fromhost : UInt64) (msg : Message) (ok : Prop) (hok : ok) :
    s.Change (s.arrive fromhost msg) ok := by
  have hw : (s.arrive fromhost msg).waiting = s.waiting := by
    have hf := StableQueue.filter_orderedInsert (P := Received.resent)
      (x := ⟨if fromhost = netIdUnassigned then msg.fromId else fromhost, msg.resetCopy, false⟩)
      s.received.sorted (fun hx => absurd hx (by simp))
    simpa [Intake.waiting, Intake.arrive, StableQueue.insert] using hf
  refine .moved rfl (fun _ => ?_) (fun hn => absurd hok hn)
  simp only [underway, pending, hw]
  rfl

theorem Sound.change_step (h : s.Sound) (ev : IntakeEvent) (ht : s.InTime ev) :
    s.Change (s.step ev) (s.Unaltering ev) := by
  cases ev with
  | arrive fromhost msg => exact change_arrive s fromhost msg _ trivial
  | receive =>
    cases hp : s.received.pop with
    | none =>
      have hf := fetch_none hp
      have hrec : s.receive = s := by rw [receive_none (by rw [hf]), hf]
      have hok : s.Unaltering .receive := by simp [Unaltering, hp, hf]
      rw [Intake.step, hrec]
      exact .moved rfl (fun _ => rfl) (fun hn => absurd hok hn)
    | some a =>
      obtain ⟨e, rest⟩ := a
      cases hr : e.resent with
      | true =>
        obtain ⟨hs, hpeer⟩ := ht e rest hp hr
        exact h.change_resent hp hr hs hpeer
      | false => exact h.change_first hp hr
  | nodes state peer => exact .moved rfl (fun _ => rfl) (fun hn => absurd trivial hn)
  | network id2host defaultHost retry => exact .moved rfl (fun _ => rfl) (fun hn => absurd trivial hn)

end Fetch

section Settle

variable {e : Received} {rest : StableQueue (fun e : Received => e.msg.priority.toNat)}

def size (s : Intake) : Nat := s.received.items.length + s.deferred.length

structure BothJoined (s : Intake) : Prop where
  state : s.state = .joined
  peer : s.peer = .joined

/-- Nothing is put aside, or a message is coming that ends it. -/
def Due (s : Intake) : Prop := s.deferred = [] ∨ ∃ e ∈ s.received.items, Reaches s.queue e.msg

theorem length_flush_le (s : Intake) : s.flush.received.items.length ≤ s.size := by
  have hlen := (StableQueue.perm_foldl_insert s.received (s.queue.resendAll s.retry s.deferred).2).length_eq
  have hle := s.queue.length_resendAll_le s.retry s.deferred
  rw [List.length_append] at hlen
  rw [flush, size, hlen]
  omega

theorem BothJoined.handleMessage (h : s.BothJoined) (resent : Bool) (m : Message) :
    (s.handleMessage resent m).BothJoined ∧ (s.handleMessage resent m).queue = s.queue ∧
      (s.handleMessage resent m).size ≤ s.size ∧
      (∀ e ∈ s.received.items, e ∈ (s.handleMessage resent m).received.items) ∧
      ((s.handleMessage resent m).deferred = [] ∨ s.handleMessage resent m = s ∧
        vastMsgtype m.msgtype ≠ VastNet.disconnectType ∧ vastMsgtype m.msgtype < vonMaxMsg) := by
  have hcourse := course_joined h.state h.peer (vastMsgtype m.msgtype)
  split at hcourse
  · rename_i hpeer
    rw [handleMessage_toPeer hcourse]
    exact ⟨h, rfl, le_rfl, fun _ he => he, .inr ⟨rfl, hpeer⟩⟩
  · rw [handleMessage_passed hcourse]
    refine ⟨⟨h.state, h.peer⟩, rfl, ?_, fun e he => s.mem_flush.mpr (.inl he), .inl rfl⟩
    exact s.length_flush_le

theorem reaches_fetch (hp : s.received.pop = some (e, rest)) (hr : Reaches s.queue e.msg) :
    ∃ m, s.fetch.2 = some (e.resent, m) ∧ m.msgtype = e.msg.msgtype := by
  by_cases hd : e.msg.msgtype = VastNet.disconnectType
  · exact ⟨{ e.msg with fromId := e.fromhost }, by simp [fetch, hp, hd], rfl⟩
  · obtain ⟨hf, hg, ht, -⟩ := hr.resolve_left hd
    have hlocal : (s.queue.learn e.fromhost e.msg).isLocal s.queue.hostId = true :=
      MessageQueue.isLocal_learn (by simp [MessageQueue.isLocal]) (.inl rfl)
    have hne : e.msg.targets.filter (s.queue.learn e.fromhost e.msg).isLocal ≠ [] :=
      List.ne_nil_of_mem (List.mem_filter.mpr ⟨ht, hlocal⟩)
    refine ⟨{ e.msg with targets := e.msg.targets.filter (s.queue.learn e.fromhost e.msg).isLocal }, ?_, rfl⟩
    have hproc : s.queue.processMessage e.fromhost e.msg =
        some { e.msg with targets := e.msg.targets.filter (s.queue.learn e.fromhost e.msg).isLocal } := by
      rw [MessageQueue.processMessage, if_neg (fun h => h.elim hd hf)]
      exact if_neg hne
    simp only [fetch, hp, if_neg hd, if_neg hf, hproc]
    simp [Option.filter, hg]

theorem Reaches.not_peer {q : MessageQueue} {m : Message} (h : Reaches q m) :
    ¬ (vastMsgtype m.msgtype ≠ VastNet.disconnectType ∧ vastMsgtype m.msgtype < vonMaxMsg) := by
  rintro ⟨hd, hlt⟩
  rcases h with h | ⟨-, -, -, hle⟩
  · rw [h] at hd
    exact hd rfl
  · exact absurd hlt (UInt16.not_lt.mpr hle)

theorem receive_nil (hi : s.received.items = []) : s.receive = s := by
  cases hp : s.received.pop with
  | none =>
    have hf := fetch_none hp
    rw [receive_none (by rw [hf]), hf]
  | some a =>
    have hitems := StableQueue.items_of_pop hp
    rw [hi] at hitems
    cases hitems

theorem BothJoined.fetch (h : s.BothJoined) : s.fetch.1.BothJoined := by
  obtain ⟨-, hs, hp⟩ := s.fetch_frame
  exact ⟨hs.trans h.state, hp.trans h.peer⟩

theorem BothJoined.receive_cons (h : s.BothJoined) (hp : s.received.pop = some (e, rest)) (hdue : s.Due) :
    s.receive.BothJoined ∧ s.receive.size < s.size ∧ s.receive.Due := by
  have hitems := StableQueue.items_of_pop hp
  obtain ⟨queue, hhost, hf⟩ := fetch_fst hp
  have hjoined : s.fetch.1.BothJoined := h.fetch
  have hsize : s.fetch.1.size < s.size := by
    rw [hf, size, size, hitems]
    simp
  have hrest : s.deferred = [] ∨ Reaches s.queue e.msg ∨ ∃ x ∈ rest.items, Reaches queue x.msg := by
    refine hdue.imp id ?_
    rintro ⟨x, hx, hr⟩
    rw [hitems] at hx
    rcases List.mem_cons.mp hx with rfl | hx
    · exact .inl hr
    · refine .inr ⟨x, hx, ?_⟩
      rwa [Reaches, hhost]
  cases hsnd : s.fetch.2 with
  | none =>
    rw [receive_none hsnd]
    refine ⟨hjoined, hsize, ?_⟩
    rw [hf]
    rcases hrest with hd | hr | hr
    · exact .inl hd
    · obtain ⟨m, hm, -⟩ := reaches_fetch hp hr
      rw [hm] at hsnd
      cases hsnd
    · exact .inr hr
  | some b =>
    obtain ⟨resent, m⟩ := b
    obtain ⟨hj, hq, hle, hmem, hdef⟩ := hjoined.handleMessage resent m
    rw [receive_some hsnd]
    refine ⟨hj, hle.trans_lt hsize, ?_⟩
    rcases hdef with hdef | ⟨hsame, hpeer⟩
    · exact .inl hdef
    · rcases hrest with hd | hr | ⟨x, hx, hr⟩
      · refine .inl ?_
        rw [hsame, hf]
        exact hd
      · obtain ⟨m', hm', htype⟩ := reaches_fetch hp hr
        rw [hsnd] at hm'
        obtain ⟨-, rfl⟩ := Prod.mk.inj (Option.some.inj hm')
        rw [htype] at hpeer
        exact absurd hpeer hr.not_peer
      · refine .inr ⟨x, ?_, ?_⟩
        · refine hmem x ?_
          rw [hf]
          exact hx
        · rw [hq, hf]
          exact hr

theorem BothJoined.drained (h : s.BothJoined) (hdue : s.Due) {n : Nat} (hn : s.size ≤ n) :
    ((List.replicate n IntakeEvent.receive).foldl step s).received.items = [] ∧
      ((List.replicate n IntakeEvent.receive).foldl step s).deferred = [] := by
  induction n generalizing s with
  | zero =>
    have hz : s.received.items.length + s.deferred.length = 0 := Nat.le_zero.mp hn
    have hi : s.received.items = [] := List.length_eq_zero_iff.mp (by omega)
    have hd : s.deferred = [] := List.length_eq_zero_iff.mp (by omega)
    exact ⟨hi, hd⟩
  | succ n ih =>
    rw [List.replicate_succ, List.foldl_cons]
    show ((List.replicate n IntakeEvent.receive).foldl step s.receive).received.items = [] ∧ _
    cases hp : s.received.pop with
    | none =>
      have hi := StableQueue.items_of_pop_none hp
      have hd : s.deferred = [] := hdue.resolve_right (by simp [hi])
      rw [show step s .receive = s.receive from rfl, receive_nil hi]
      exact ih h hdue (by simp [size, hi, hd])
    | some a =>
      obtain ⟨hj, hlt, hdue'⟩ := h.receive_cons hp hdue
      exact ih hj hdue' (by omega)

theorem BothJoined.receive (h : s.BothJoined) : s.receive.BothJoined := by
  cases hf : s.fetch.2 with
  | none =>
    rw [receive_none hf]
    exact h.fetch
  | some b =>
    obtain ⟨resent, m⟩ := b
    rw [receive_some hf]
    exact (h.fetch.handleMessage resent m).1

theorem BothJoined.inTime (h : s.BothJoined) (n : Nat) :
    StepRun.Along step InTime s (List.replicate n .receive) := by
  induction n generalizing s with
  | zero => trivial
  | succ n ih => exact ⟨fun _ _ _ _ => ⟨h.state, h.peer⟩, ih h.receive⟩

theorem hostId_step (s : Intake) (ev : IntakeEvent) : (s.step ev).queue.hostId = s.queue.hostId := by
  cases ev with
  | arrive fromhost msg => rfl
  | receive =>
    rw [step]
    cases hf : s.fetch.2 with
    | none =>
      rw [receive_none hf]
      exact s.fetch_frame.1
    | some b =>
      obtain ⟨resent, m⟩ := b
      rw [receive_some hf, ← s.fetch_frame.1, Intake.handleMessage]
      dsimp only
      split <;> rfl
  | nodes state peer => rfl
  | network id2host defaultHost retry => rfl

theorem hostId_run (s : Intake) (es : List IntakeEvent) :
    (es.foldl step s).queue.hostId = s.queue.hostId := by
  induction es generalizing s with
  | nil => rfl
  | cons e es ih => rw [List.foldl_cons, ih, hostId_step]

/-- After `settle` everything that was put aside has come back, and none of it too early. -/
theorem settled (s : Intake) (fromhost : UInt64) {next : Message} (hnext : Reaches s.queue next) :
    ((s.settle fromhost next).foldl step s).received.items = [] ∧
      ((s.settle fromhost next).foldl step s).deferred = [] ∧
      StepRun.Along step InTime s (s.settle fromhost next) := by
  have hjoined : (({ s with state := .joined, peer := .joined } : Intake).arrive fromhost next).BothJoined :=
    ⟨rfl, rfl⟩
  have hdue : (({ s with state := .joined, peer := .joined } : Intake).arrive fromhost next).Due := by
    refine .inr ⟨⟨if fromhost = netIdUnassigned then next.fromId else fromhost, next.resetCopy, false⟩, ?_, hnext⟩
    exact (List.mem_orderedInsert _).mpr (.inl rfl)
  have hsize : (({ s with state := .joined, peer := .joined } : Intake).arrive fromhost next).size ≤
      s.received.items.length + 1 + s.deferred.length := by
    simp [size, arrive, StableQueue.insert, List.orderedInsert_length]
  obtain ⟨hi, hd⟩ := hjoined.drained hdue hsize
  exact ⟨hi, hd, trivial, trivial, hjoined.inTime _⟩

theorem Fresh.sound (h : s.Fresh) : s.Sound := by
  refine ⟨fun e he => (h.received e he).2, fun e he hr => ?_, ?_, ?_⟩
  · rw [(h.received e he).1] at hr
    cases hr
  · simp [h.deferred]
  · simp [h.taken]

theorem Fresh.intact (h : s.Fresh) : s.underway = s.arrived := by
  have hw : s.waiting = [] := List.filter_eq_nil_iff.mpr (fun e he => by simp [(h.received e he).1])
  simp [underway, pending, hw, h.deferred, h.arrived, h.taken]

/-- What is altered once stays so, therefore the last state tells about all steps. -/
theorem intact_iff_along {es : List IntakeEvent} (ht : StepRun.Along step InTime s es) (hs : s.Sound)
    (hi : s.underway = s.arrived) :
    (es.foldl step s).underway = (es.foldl step s).arrived ↔ StepRun.Along step Unaltering s es :=
  @StepRun.last_iff_along Intake IntakeEvent step Sound Unaltering s (fun s => s.underway = s.arrived) Harmed InTime
    (fun _ ev h _ => h.step ev)
    (fun _ ev h ht hgood hok => (h.change_step ev ht).intact hok hgood)
    (fun _ ev h ht hgood hok => (h.change_step ev ht).harmed hok hgood)
    (fun _ ev h ht hbad => (h.change_step ev ht).stays_harmed hbad)
    (fun _ h hbad => h.not_intact hbad) es ht hs hi

/-- All that was put aside has been dispatched when the queue is processed to its end: as it would have
been before, and in the same order, where every step meets the condition. -/
theorem deferred_unaltered_iff (s : Intake) (hs : s.Fresh) (es : List IntakeEvent)
    (ht : StepRun.Along step InTime s es) (fromhost : UInt64) (next : Message) (hnext : Reaches s.queue next) :
    let run := es ++ (es.foldl step s).settle fromhost next
    (run.foldl step s).taken = (run.foldl step s).arrived ↔ StepRun.Along step Unaltering s run := by
  intro run
  have hreach : Reaches (es.foldl step s).queue next := by rwa [Reaches, hostId_run]
  obtain ⟨hi, hd, hlast⟩ := (es.foldl step s).settled fromhost hreach
  have hall : StepRun.Along step InTime s run := StepRun.along_append.mpr ⟨ht, hlast⟩
  have hend : (run.foldl step s).underway = (run.foldl step s).taken := by
    rw [underway, pending, waiting, List.foldl_append, hi, hd]
    simp
  rw [← hend]
  exact intact_iff_along hall hs.sound hs.intact

end Settle

def joiningMatcher : Intake where
  queue := ⟨5, fun target => if target = 5 then some 5 else none, 9⟩
  state := .joined
  peer := .joining

theorem joiningMatcher_fresh : joiningMatcher.Fresh := ⟨rfl, rfl, rfl, fun _ he => absurd he List.not_mem_nil⟩

/-- From the client at host 7, with the application type `app`. -/
def publication (app : UInt16) : Message :=
  ((({ fromId := 7, msgtype := packMsgtype app publishType, msggroup := groupMatcher, priority := 1
       targets := [5] } : Message).putAs FixedCodec.u64 100).putAs Area.codec { radius := 4 }).putAs FixedCodec.u16 1

/-- A message comes while the `VSOPeer` is joining, then it has joined and the message comes once more. -/
def twiceRun (msg : Message) : List IntakeEvent :=
  [.arrive 7 msg, .receive] ++ (([.arrive 7 msg, .receive] : List IntakeEvent).foldl step joiningMatcher).settle 7 msg

theorem inTime_first (msg : Message) : StepRun.Along step InTime joiningMatcher [.arrive 7 msg, .receive] := by
  refine ⟨trivial, fun e rest hp hr => ?_, trivial⟩
  have hitems : (joiningMatcher.step (.arrive 7 msg)).received.items = [⟨7, msg.resetCopy, false⟩] := rfl
  have he : e = ⟨7, msg.resetCopy, false⟩ := by
    have hmem := mem_of_pop hp
    rw [hitems] at hmem
    exact List.mem_singleton.mp hmem
  rw [he] at hr
  cases hr

theorem plain_publication_unaltered :
    StepRun.Along step Unaltering joiningMatcher (twiceRun (publication 0)) :=
  (deferred_unaltered_iff joiningMatcher joiningMatcher_fresh _ (inTime_first _) 7 (publication 0)
    (.inr ⟨by decide, by decide, by decide, by decide⟩)).mp (by decide +kernel)

/-- What is published under the application type 7 while the `VSOPeer` is joining is dispatched without it. -/
theorem deferred_publication_loses_type :
    ((twiceRun (publication 7)).foldl step joiningMatcher).arrived.map Dispatched.appMsgtype = [7] ∧
      ((twiceRun (publication 7)).foldl step joiningMatcher).taken.map Dispatched.appMsgtype = [0] := by
  decide +kernel

end Intake

end VastNC
