import Mathlib.Data.Nat.Sqrt
import VastNC.Lib.FallibleRun
import VastNC.Lib.Regions

/-! The memory of the sweep: its buffers, which each `calsfv` hands out anew, and the lists of nodes
that are cut from them. -/

namespace VastNC

open FallibleRun Regions

inductive NodeKind where
  | edge
  | halfedge
  | site
  deriving DecidableEq

/-- `sizeof` of the nodes and of a pointer. -/
structure NodeSizes where
  size : NodeKind → Nat
  pointer : Nat
  pos : ∀ kind, 0 < size kind

/-- `overflow`: the bytes do not fit an `int`. `null`: a node is taken from an empty list or a piece from
no buffer. -/
inductive MemoryFault where
  | overflow
  | null
  deriving DecidableEq

/-- Buffers are numbered in the order of their allocation. `pieces` is a history: what was handed out
since the last `calsfv` began. -/
structure SfMemory where
  bufList : List (Nat × Nat) := []
  fresh : Nat := 0
  memAlloc : Nat := 0
  memFree : Nat := 0
  memPos : Nat := 0
  sqrtNsites : Nat := 0
  free : NodeKind → List (Region Nat) := fun _ => []
  pieces : List (Region Nat) := []

namespace SfMemory

def increment (n : Nat) : Nat := (n / 20000 + 1) * 20000

def myalloc (n : Nat) (m : SfMemory) : Except MemoryFault (Region Nat × SfMemory) :=
  if m.memFree < n then
    if m.memAlloc + increment n < 2 ^ 31 then
      .ok (⟨m.fresh, 0, n⟩, { m with
        bufList := m.bufList ++ [(m.fresh, increment n)]
        fresh := m.fresh + 1
        memAlloc := m.memAlloc + increment n
        memFree := increment n - n
        memPos := n })
    else .error .overflow
  else
    match m.bufList.getLast? with
    | none => .error .null
    | some b => .ok (⟨b.1, m.memPos, n⟩, { m with memFree := m.memFree - n, memPos := m.memPos + n })

def hand (piece : Region Nat) (m : SfMemory) : SfMemory := { m with pieces := piece :: m.pieces }

/-- A piece for a table. -/
def table (n : Nat) (m : SfMemory) : Except MemoryFault SfMemory := do
  let r ← m.myalloc n
  return hand r.1 r.2

variable (sizes : NodeSizes)

/-- The first part of `getfree`: `makefree` puts each new node before those that are there. -/
def refill (kind : NodeKind) (m : SfMemory) : Except MemoryFault SfMemory := do
  let r ← m.myalloc (m.sqrtNsites * sizes.size kind)
  return { r.2 with
    free := Function.update r.2.free kind
      ((cut r.1 (sizes.size kind) m.sqrtNsites).reverse ++ r.2.free kind) }

def takeFree (kind : NodeKind) (m : SfMemory) : Except MemoryFault SfMemory :=
  match m.free kind with
  | [] => .error .null
  | t :: rest => .ok (hand t { m with free := Function.update m.free kind rest })

def getfree (kind : NodeKind) (m : SfMemory) : Except MemoryFault SfMemory :=
  (if m.free kind = [] then m.refill sizes kind else .ok m) >>= takeFree kind

/-- Several buffers become one of the same size. -/
def combine (m : SfMemory) : SfMemory :=
  if 1 < m.bufList.length then { m with bufList := [(m.fresh, m.memAlloc)], fresh := m.fresh + 1 } else m

/-- The beginning of `calsfv`, with the lists that it, `geominit` and `ELinitialize` start anew. -/
def begin (nsites : Nat) (m : SfMemory) : SfMemory :=
  { m.combine with
    memFree := m.memAlloc
    memPos := 0
    sqrtNsites := Nat.sqrt (nsites + 4)
    free := fun _ => []
    pieces := [] }

/-- One diagram: the tables of `PQinitialize` and `ELinitialize`, and then the nodes that the sweep takes. -/
def calsfv (m : SfMemory) (sweep : Nat × List NodeKind) : Except MemoryFault SfMemory := do
  let s := Nat.sqrt (sweep.1 + 4)
  let m ← (m.begin sweep.1).table (4 * s * sizes.size .halfedge)
  let m ← m.table (2 * s * sizes.pointer)
  run (fun m kind => m.getfree sizes kind) m sweep.2

/-- What is handed out and what is to be. -/
def regions (m : SfMemory) : List (Region Nat) :=
  m.pieces ++ (m.free .edge ++ (m.free .halfedge ++ m.free .site))

def current (m : SfMemory) : Option (Nat × Nat) := m.bufList.getLast?

/-- The buffers are as the numbers say, and hold the regions apart from each other and from what is still
unused. -/
structure Holds (m : SfMemory) (rs : List (Region Nat)) : Prop where
  total : m.memAlloc = (m.bufList.map Prod.snd).sum
  numbers : ∀ b ∈ m.bufList, b.1 < m.fresh
  distinct : (m.bufList.map Prod.fst).Nodup
  room : ∀ b, m.current = some b → m.memPos + m.memFree = b.2
  placed : ∀ r ∈ rs, ∃ b ∈ m.bufList, r.block = b.1 ∧ r.off + r.len ≤ b.2
  behind : ∀ r ∈ rs, ∀ b, m.current = some b → r.block = b.1 → r.off + r.len ≤ m.memPos
  separate : Separate rs

/-- The bytes that a request for a node asks of `myalloc`, with so many nodes in the lists. -/
def asked (s : Nat) (avail : NodeKind → Nat) (kind : NodeKind) : Nat :=
  if avail kind = 0 then s * sizes.size kind else 0

def left (s : Nat) (avail : NodeKind → Nat) (kind : NodeKind) : NodeKind → Nat :=
  Function.update avail kind ((if avail kind = 0 then s else avail kind) - 1)

def demand (s : Nat) (avail : NodeKind → Nat) : List NodeKind → Nat
  | [] => 0
  | kind :: kinds => asked sizes s avail kind + demand s (left s avail kind) kinds

/-- The bytes of one diagram. -/
def bytes (sweep : Nat × List NodeKind) : Nat :=
  let s := Nat.sqrt (sweep.1 + 4)
  4 * s * sizes.size .halfedge + (2 * s * sizes.pointer + demand sizes s (fun _ => 0) sweep.2)

def lengths (m : SfMemory) : NodeKind → Nat := fun kind => (m.free kind).length

variable {sizes} {m m' : SfMemory} {n nsites : Nat} {piece : Region Nat} {kind : NodeKind}
  {rs rs' : List (Region Nat)}

theorem Holds.perm (h : m.Holds rs) (hp : rs.Perm rs') : m.Holds rs' :=
  { h with
    placed := fun r hr => h.placed r (hp.mem_iff.mpr hr)
    behind := fun r hr => h.behind r (hp.mem_iff.mpr hr)
    separate := h.separate.perm hp }

/-- A region may be replaced by its pieces. -/
theorem Holds.cut (h : m.Holds (piece :: rs)) {size : Nat} (hn : n * size ≤ piece.len) :
    m.Holds (cut piece size n ++ rs) := by
  have hin (r : Region Nat) (hr : r ∈ Regions.cut piece size n ++ rs) :
      ∃ t ∈ piece :: rs, r.block = t.block ∧ r.off + r.len ≤ t.off + t.len := by
    rcases List.mem_append.mp hr with hr | hr
    · obtain ⟨hblock, -, hend⟩ := within_of_mem_cut hn hr
      exact ⟨piece, List.mem_cons_self, hblock, hend⟩
    · exact ⟨r, List.mem_cons_of_mem _ hr, rfl, Nat.le_refl _⟩
  constructor
  · exact h.total
  · exact h.numbers
  · exact h.distinct
  · exact h.room
  · intro r hr
    obtain ⟨t, ht, hblock, hend⟩ := hin r hr
    obtain ⟨b, hb, he, hle⟩ := h.placed t ht
    exact ⟨b, hb, hblock.trans he, hend.trans hle⟩
  · intro r hr b hb he
    obtain ⟨t, ht, hblock, hend⟩ := hin r hr
    exact hend.trans (h.behind t ht b hb (hblock.symm.trans he))
  · exact h.separate.cut_append hn

theorem lt_increment (n : Nat) : n < increment n := by
  have h := Nat.lt_div_mul_add (a := n) (b := 20000) (by omega)
  rw [increment, Nat.add_mul]
  omega

theorem Holds.fresh_block (h : m.Holds rs) {r : Region Nat} (hr : r ∈ rs) : r.block ≠ m.fresh := by
  obtain ⟨b, hb, he, -⟩ := h.placed r hr
  have hlt := h.numbers b hb
  omega

theorem Holds.grow (h : m.Holds rs) {size : Nat} (hn : n ≤ size) :
    Holds { m with
      bufList := m.bufList ++ [(m.fresh, size)]
      fresh := m.fresh + 1
      memAlloc := m.memAlloc + size
      memFree := size - n
      memPos := n } (⟨m.fresh, 0, n⟩ :: rs) := by
  have hcurrent (b : Nat × Nat) (hb : (m.bufList ++ [(m.fresh, size)]).getLast? = some b) :
      b = (m.fresh, size) := by
    rw [List.getLast?_append_of_ne_nil _ (List.cons_ne_nil _ _), List.getLast?_singleton] at hb
    exact (Option.some.inj hb).symm
  constructor
  · dsimp only
    rw [List.map_append, List.sum_append, ← h.total]
    rfl
  · intro b hb
    rcases List.mem_append.mp hb with hb | hb
    · exact (h.numbers b hb).trans (Nat.lt_succ_self _)
    · rw [List.mem_singleton.mp hb]
      exact Nat.lt_succ_self _
  · dsimp only
    rw [List.map_append, List.map_singleton]
    refine List.nodup_append.mpr ⟨h.distinct, List.nodup_singleton _, ?_⟩
    intro k hk j hj
    obtain ⟨b, hb, rfl⟩ := List.mem_map.mp hk
    rw [List.mem_singleton.mp hj]
    exact (h.numbers b hb).ne
  · intro b hb
    rw [hcurrent b hb]
    exact Nat.add_sub_cancel' hn
  · intro r hr
    rcases List.mem_cons.mp hr with rfl | hr
    · exact ⟨(m.fresh, size), List.mem_append_right _ (List.mem_singleton_self _), rfl, by dsimp only; omega⟩
    · obtain ⟨b, hb, he⟩ := h.placed r hr
      exact ⟨b, List.mem_append_left _ hb, he⟩
  · intro r hr b hb he
    rcases List.mem_cons.mp hr with rfl | hr
    · exact Nat.le_of_eq (Nat.zero_add n)
    · rw [hcurrent b hb] at he
      exact absurd he (h.fresh_block hr)
  · refine separate_cons.mpr ⟨fun r hr he => ?_, h.separate⟩
    exact absurd he.symm (h.fresh_block hr)

theorem Holds.advance (h : m.Holds rs) {b : Nat × Nat} (hb : m.current = some b) (hn : n ≤ m.memFree) :
    Holds { m with memFree := m.memFree - n, memPos := m.memPos + n } (⟨b.1, m.memPos, n⟩ :: rs) := by
  have hroom := h.room b hb
  constructor
  · exact h.total
  · exact h.numbers
  · exact h.distinct
  · intro c hc
    have hc := h.room c hc
    dsimp only
    omega
  · intro r hr
    rcases List.mem_cons.mp hr with rfl | hr
    · exact ⟨b, List.mem_of_getLast? hb, rfl, by dsimp only; omega⟩
    · exact h.placed r hr
  · intro r hr c hc he
    rcases List.mem_cons.mp hr with rfl | hr
    · exact Nat.le_refl _
    · exact (h.behind r hr c hc he).trans (Nat.le_add_right _ _)
  · refine separate_cons.mpr ⟨fun r hr he => .inr ?_, h.separate⟩
    exact h.behind r hr b hb he.symm

/-- What `myalloc` does to the rest of the state. -/
structure Kept (m m' : SfMemory) : Prop where
  sqrtNsites : m'.sqrtNsites = m.sqrtNsites
  free : m'.free = m.free
  pieces : m'.pieces = m.pieces

/-- What the computation returns is as said, and it fails in no other way than by running out of numbers. -/
def Ends {α : Type} (x : Except MemoryFault α) (Q : α → Prop) : Prop :=
  match x with
  | .ok a => Q a
  | .error e => e = .overflow

theorem Ends.bind {α β : Type} {P : α → Prop} {Q : β → Prop} {x : Except MemoryFault α}
    {f : α → Except MemoryFault β} (h : Ends x P) (hf : ∀ a, P a → Ends (f a) Q) : Ends (x >>= f) Q := by
  cases x with
  | ok a => exact hf a h
  | error e => exact h

theorem Ends.mono {α : Type} {P Q : α → Prop} {x : Except MemoryFault α} (h : Ends x P)
    (hpq : ∀ a, x = .ok a → P a → Q a) : Ends x Q := by
  cases x with
  | ok a => exact hpq a rfl h
  | error e => exact h

theorem Ends.run {ε : Type} {P : SfMemory → Prop} {step : SfMemory → ε → Except MemoryFault SfMemory}
    (hstep : ∀ m e, P m → Ends (step m e) P) (h : P m) (es : List ε) : Ends (run step m es) P := by
  induction es generalizing m with
  | nil => exact h
  | cons e es ih =>
    have hone := hstep m e h
    rw [FallibleRun.run]
    cases he : step m e with
    | ok t =>
      rw [he] at hone
      exact ih hone
    | error f =>
      rw [he] at hone
      exact hone

theorem Holds.myalloc (h : m.Holds rs) (hnone : m.bufList = [] → m.memFree < n) :
    Ends (m.myalloc n) fun r => r.2.Holds (r.1 :: rs) ∧ r.1.len = n ∧ r.2.bufList ≠ [] ∧ Kept m r.2 := by
  rw [SfMemory.myalloc]
  split
  · split
    · exact ⟨h.grow (lt_increment n).le, rfl, List.append_ne_nil_of_right_ne_nil _ (List.cons_ne_nil _ _),
        rfl, rfl, rfl⟩
    · exact rfl
  · rename_i hfree
    split
    · rename_i hb
      exact absurd (hnone (List.getLast?_eq_none_iff.mp hb)) hfree
    · rename_i b hb
      exact ⟨h.advance hb (Nat.le_of_not_lt hfree), rfl, List.ne_nil_of_mem (List.mem_of_getLast? hb),
        rfl, rfl, rfl⟩

def Sound (m : SfMemory) : Prop := m.Holds m.regions

/-- A sweep is under way. -/
structure Ready (m : SfMemory) : Prop where
  sound : m.Sound
  buffer : m.bufList ≠ []
  nodes : 0 < m.sqrtNsites

theorem Sound.table (h : m.Sound) (hnone : m.bufList = [] → m.memFree < n) (hs : 0 < m.sqrtNsites) :
    Ends (m.table n) Ready := by
  refine (h.myalloc hnone).bind fun r hr => ?_
  obtain ⟨hholds, -, hbuffer, hkept⟩ := hr
  refine ⟨?_, hbuffer, hkept.sqrtNsites ▸ hs⟩
  have hregions : (hand r.1 r.2).regions = r.1 :: m.regions := by
    rw [regions, hand, hkept.free, hkept.pieces]
    rfl
  rw [Sound, hregions]
  exact { hholds with }

/-- The list of one kind before the rest of what is held. -/
theorem regions_perm (m : SfMemory) (kind : NodeKind) : ∃ rest, ∀ list pieces,
    ({ m with free := Function.update m.free kind list, pieces } : SfMemory).regions.Perm
      (list ++ (pieces ++ rest)) := by
  cases kind with
  | edge =>
    refine ⟨m.free .halfedge ++ m.free .site, fun list pieces => ?_⟩
    exact List.perm_append_comm_assoc pieces list _
  | halfedge =>
    refine ⟨m.free .edge ++ m.free .site, fun list pieces => ?_⟩
    have hinner := List.perm_append_comm_assoc (m.free .edge) list (m.free .site)
    exact (hinner.append_left pieces).trans (List.perm_append_comm_assoc pieces list _)
  | site =>
    refine ⟨m.free .edge ++ m.free .halfedge, fun list pieces => ?_⟩
    have hinner : (m.free .edge ++ (m.free .halfedge ++ list)).Perm
        (list ++ (m.free .edge ++ m.free .halfedge)) := by
      rw [← List.append_assoc]
      exact List.perm_append_comm
    exact (hinner.append_left pieces).trans (List.perm_append_comm_assoc pieces list _)

theorem Ready.refill (h : m.Ready) (kind : NodeKind) :
    Ends (m.refill sizes kind) fun m' => m'.Ready ∧ m'.free kind ≠ [] := by
  refine (h.sound.myalloc (n := m.sqrtNsites * sizes.size kind) fun hb => absurd hb h.buffer).bind
    fun r hr => ?_
  obtain ⟨hholds, hlen, hbuffer, hkept⟩ := hr
  have hcut := hholds.cut (n := m.sqrtNsites) (Nat.le_of_eq hlen.symm)
  refine ⟨⟨?_, hbuffer, hkept.sqrtNsites ▸ h.nodes⟩, ?_⟩
  · obtain ⟨rest, hrest⟩ := regions_perm r.2 kind
    have hbefore := hrest (r.2.free kind) r.2.pieces
    rw [Function.update_eq_self] at hbefore
    have hsame : m.regions = r.2.regions := by rw [regions, regions, hkept.free, hkept.pieces]
    rw [hsame] at hcut
    have hperm := ((List.reverse_perm (cut r.1 (sizes.size kind) m.sqrtNsites)).append hbefore.symm).symm
    rw [← List.append_assoc] at hperm
    exact { hcut.perm (hperm.trans (hrest _ r.2.pieces).symm) with }
  · dsimp only
    rw [Function.update_self]
    refine List.append_ne_nil_of_left_ne_nil ?_ _
    rw [Ne, List.reverse_eq_nil_iff, ← List.length_eq_zero_iff, length_cut]
    exact h.nodes.ne'

theorem Ready.takeFree (h : m.Ready) {kind : NodeKind} (hne : m.free kind ≠ []) :
    Ends (m.takeFree kind) Ready := by
  rw [SfMemory.takeFree]
  split
  · rename_i hnil
    exact absurd hnil hne
  · rename_i t rest hfree
    refine ⟨?_, h.buffer, h.nodes⟩
    obtain ⟨others, hothers⟩ := regions_perm m kind
    have hbefore := hothers (t :: rest) m.pieces
    rw [← hfree, Function.update_eq_self, hfree] at hbefore
    have hafter := hothers rest (t :: m.pieces)
    have hmoved : (t :: rest ++ (m.pieces ++ others)).Perm (rest ++ (t :: m.pieces ++ others)) :=
      List.perm_middle.symm
    exact { h.sound.perm ((hbefore.trans hmoved).trans hafter.symm) with }

theorem Ready.getfree (h : m.Ready) (kind : NodeKind) : Ends (m.getfree sizes kind) Ready := by
  have hfilled : Ends (if m.free kind = [] then m.refill sizes kind else .ok m) fun m' =>
      m'.Ready ∧ m'.free kind ≠ [] := by
    split
    · exact h.refill kind
    · rename_i hne
      exact ⟨h, hne⟩
  exact hfilled.bind fun u hu => hu.1.takeFree hu.2

theorem combine_memAlloc : m.combine.memAlloc = m.memAlloc := by
  rw [combine]
  split <;> rfl

theorem begin_memFree : (m.begin nsites).memFree = (m.begin nsites).memAlloc := combine_memAlloc.symm

theorem combine_bufList (m : SfMemory) : m.combine.bufList = [] ∨ ∃ b, m.combine.bufList = [b] := by
  rw [combine]
  split
  · exact .inr ⟨_, rfl⟩
  · rename_i hlen
    rcases hl : m.bufList with _ | ⟨b, _ | ⟨c, rest⟩⟩
    · exact .inl rfl
    · exact .inr ⟨b, rfl⟩
    · rw [hl, List.length_cons, List.length_cons] at hlen
      omega

theorem Sound.begin (h : m.Sound) (nsites : Nat) : (m.begin nsites).Sound := by
  have hcombined : m.combine.memAlloc = (m.combine.bufList.map Prod.snd).sum ∧
      ∀ b ∈ m.combine.bufList, b.1 < m.combine.fresh := by
    rw [combine]
    split
    · refine ⟨rfl, fun b hb => ?_⟩
      rw [List.mem_singleton.mp hb]
      exact Nat.lt_succ_self _
    · exact ⟨h.total, h.numbers⟩
  obtain ⟨htotal, hnumbers⟩ := hcombined
  have hnone (r : Region Nat) (hr : r ∈ (m.begin nsites).regions) : False := List.not_mem_nil hr
  constructor
  · exact htotal
  · exact hnumbers
  · change (m.combine.bufList.map Prod.fst).Nodup
    rcases m.combine_bufList with hnil | ⟨b, hb⟩
    · rw [hnil]
      exact List.nodup_nil
    · rw [hb]
      exact List.nodup_singleton _
  · intro b hb
    have hb : m.combine.bufList.getLast? = some b := hb
    rcases m.combine_bufList with hnil | ⟨c, hc⟩
    · rw [hnil] at hb
      cases hb
    · rw [hc, List.getLast?_singleton] at hb
      cases hb
      rw [hc, List.map_singleton, List.sum_singleton] at htotal
      exact (Nat.zero_add _).trans (combine_memAlloc.symm.trans htotal)
  · exact fun r hr => (hnone r hr).elim
  · exact fun r hr => (hnone r hr).elim
  · exact List.Pairwise.nil

theorem Sound.calsfv (h : m.Sound) (sweep : Nat × List NodeKind) : Ends (m.calsfv sizes sweep) Sound := by
  have hbegin := h.begin sweep.1
  have hs : 0 < Nat.sqrt (sweep.1 + 4) := Nat.sqrt_pos.mpr (Nat.succ_pos _)
  have hnone (hb : (m.begin sweep.1).bufList = []) :
      (m.begin sweep.1).memFree < 4 * Nat.sqrt (sweep.1 + 4) * sizes.size .halfedge := by
    have hfree : (m.begin sweep.1).memFree = (m.begin sweep.1).memAlloc := begin_memFree
    rw [hfree, hbegin.total, hb]
    exact Nat.mul_pos (Nat.mul_pos (by omega) hs) (sizes.pos .halfedge)
  refine (hbegin.table hnone hs).bind fun u hu => ?_
  refine (hu.sound.table (fun hb => absurd hb hu.buffer) hu.nodes).bind fun v hv => ?_
  have hrun : Ends (run (fun m kind => m.getfree sizes kind) v sweep.2) Ready :=
    Ends.run (fun m kind hm => hm.getfree kind) hv sweep.2
  exact hrun.mono fun w _ hw => hw.sound

theorem sound_run (sizes : NodeSizes) (sweeps : List (Nat × List NodeKind)) :
    Ends (run (SfMemory.calsfv sizes) {} sweeps) Sound := by
  refine Ends.run (fun m sweep hm => hm.calsfv sweep) ?_ sweeps
  constructor
  · rfl
  · exact fun b hb => (List.not_mem_nil hb).elim
  · exact List.nodup_nil
  · rintro b ⟨⟩
  · exact fun r hr => (List.not_mem_nil hr).elim
  · exact fun r hr => (List.not_mem_nil hr).elim
  · exact List.Pairwise.nil

/-- However often diagrams are computed, all pieces of memory lie in buffers and no two overlap. Only the
number of bytes can stop it. -/
theorem sweeps_separate (sizes : NodeSizes) (sweeps : List (Nat × List NodeKind)) :
    Ends (run (SfMemory.calsfv sizes) {} sweeps) fun m => Separate m.regions ∧
      (∀ r ∈ m.regions, ∃ b ∈ m.bufList, r.block = b.1 ∧ r.off + r.len ≤ b.2) ∧
        (m.bufList.map Prod.fst).Nodup ∧ m.memAlloc = (m.bufList.map Prod.snd).sum :=
  (sound_run sizes sweeps).mono fun _ _ h => ⟨h.separate, h.placed, h.distinct, h.total⟩

/-- The bytes taken from the buffers since the diagram began grow by at least `n`. -/
structure Takes (n : Nat) (m m' : SfMemory) : Prop where
  grows : m.memAlloc ≤ m'.memAlloc
  taken : m.memAlloc + m'.memFree + n ≤ m'.memAlloc + m.memFree

/-- The bytes come from the buffer that is there. -/
structure Fits (n : Nat) (m m' : SfMemory) : Prop where
  memAlloc : m'.memAlloc = m.memAlloc
  bufList : m'.bufList = m.bufList
  memFree : m'.memFree + n = m.memFree

variable {k : Nat} {m'' : SfMemory} {r : Region Nat × SfMemory}

theorem Takes.trans (h : Takes n m m') (h' : Takes k m' m'') : Takes (n + k) m m'' := by
  have hall := Nat.add_le_add h.taken h'.taken
  exact ⟨h.grows.trans h'.grows, by omega⟩

theorem Fits.trans (h : Fits n m m') (h' : Fits k m' m'') : Fits (n + k) m m'' := by
  refine ⟨h'.memAlloc.trans h.memAlloc, h'.bufList.trans h.bufList, ?_⟩
  rw [← h.memFree, ← h'.memFree]
  omega

theorem takes_of_myalloc (h : m.myalloc n = .ok r) : Takes n m r.2 ∧ Kept m r.2 := by
  rw [SfMemory.myalloc] at h
  split at h
  · split at h
    · cases h
      have hlt := lt_increment n
      refine ⟨⟨Nat.le_add_right _ _, ?_⟩, rfl, rfl, rfl⟩
      dsimp only
      omega
    · cases h
  · split at h
    · cases h
    · cases h
      refine ⟨⟨Nat.le_refl _, ?_⟩, rfl, rfl, rfl⟩
      dsimp only
      omega

theorem myalloc_fits (hb : m.bufList ≠ []) (hn : n ≤ m.memFree) :
    ∃ r, m.myalloc n = .ok r ∧ Fits n m r.2 ∧ Kept m r.2 := by
  have hlast := List.getLast?_eq_some_getLast hb
  have hok : m.myalloc n = .ok (⟨(m.bufList.getLast hb).1, m.memPos, n⟩,
      { m with memFree := m.memFree - n, memPos := m.memPos + n }) := by
    rw [SfMemory.myalloc, if_neg (Nat.not_lt_of_le hn), hlast]
  exact ⟨_, hok, ⟨rfl, rfl, Nat.sub_add_cancel hn⟩, rfl, rfl, rfl⟩

theorem Fits.takes (h : Fits n m m') : Takes n m m' := by
  refine ⟨h.memAlloc.ge, ?_⟩
  rw [h.memAlloc, ← h.memFree, Nat.add_assoc]

theorem bind_ok {α β : Type} {x : Except MemoryFault α} {f : α → Except MemoryFault β} {b : β}
    (h : x >>= f = .ok b) : ∃ a, x = .ok a ∧ f a = .ok b := by
  cases x with
  | ok a => exact ⟨a, rfl, h⟩
  | error e => cases h

theorem bind_of_ok {α β : Type} {x : Except MemoryFault α} {a : α} (h : x = .ok a)
    (f : α → Except MemoryFault β) : x >>= f = f a := by
  rw [h]
  rfl

/-- One more of a kind is gone. -/
structure Gone (n : Nat) (kind : NodeKind) (m m' : SfMemory) : Prop where
  sqrtNsites : m'.sqrtNsites = m.sqrtNsites
  lengths : m'.lengths = Function.update m.lengths kind (n - 1)

theorem takeFree_ok (hne : m.free kind ≠ []) :
    ∃ m', m.takeFree kind = .ok m' ∧ Fits 0 m m' ∧ Gone (m.lengths kind) kind m m' := by
  obtain ⟨t, rest, hfree⟩ := List.exists_cons_of_ne_nil hne
  have hok : m.takeFree kind = .ok (hand t { m with free := Function.update m.free kind rest }) := by
    rw [SfMemory.takeFree, hfree]
  have hlengths := Function.comp_update List.length m.free kind rest
  have hlen : m.lengths kind - 1 = rest.length := by rw [lengths, hfree, List.length_cons, Nat.add_sub_cancel]
  exact ⟨_, hok, ⟨rfl, rfl, rfl⟩, rfl, hlengths.trans (hlen ▸ rfl)⟩

theorem refill_ok (h : m.refill sizes kind = .ok m') :
    Takes (m.sqrtNsites * sizes.size kind) m m' ∧ m'.sqrtNsites = m.sqrtNsites ∧
      m'.lengths = Function.update m.lengths kind (m.sqrtNsites + m.lengths kind) := by
  obtain ⟨r, hr, hm⟩ := bind_ok h
  obtain ⟨htakes, hkept⟩ := takes_of_myalloc hr
  cases hm
  refine ⟨⟨htakes.grows, htakes.taken⟩, hkept.sqrtNsites, ?_⟩
  change List.length ∘ Function.update r.2.free kind
    ((cut r.1 (sizes.size kind) m.sqrtNsites).reverse ++ r.2.free kind) = _
  rw [Function.comp_update, List.length_append, List.length_reverse, length_cut, hkept.free]
  rfl

theorem refill_fits (hb : m.bufList ≠ []) (hn : m.sqrtNsites * sizes.size kind ≤ m.memFree) :
    ∃ m', m.refill sizes kind = .ok m' ∧ Fits (m.sqrtNsites * sizes.size kind) m m' := by
  obtain ⟨r, hr, hfits, -⟩ := myalloc_fits hb hn
  rw [SfMemory.refill, hr]
  exact ⟨_, rfl, ⟨hfits.memAlloc, hfits.bufList, hfits.memFree⟩⟩

theorem getfree_eq (m : SfMemory) (kind : NodeKind) : m.getfree sizes kind =
    (if m.free kind = [] then m.refill sizes kind else .ok m) >>= SfMemory.takeFree kind := rfl

theorem lengths_eq_zero : m.lengths kind = 0 ↔ m.free kind = [] := List.length_eq_zero_iff

theorem Gone.of_refill {m'' : SfMemory} (hfree : m.free kind = []) (hs : m'.sqrtNsites = m.sqrtNsites)
    (hlengths : m'.lengths = Function.update m.lengths kind (m.sqrtNsites + m.lengths kind))
    (hgone : Gone (m'.lengths kind) kind m' m'') : m''.sqrtNsites = m.sqrtNsites ∧
      m''.lengths = left m.sqrtNsites m.lengths kind := by
  refine ⟨hgone.sqrtNsites.trans hs, hgone.lengths.trans ?_⟩
  rw [left, if_pos (lengths_eq_zero.mpr hfree), hlengths, Function.update_self, Function.update_idem,
    lengths_eq_zero.mpr hfree, Nat.add_zero]

theorem getfree_ok (h : m.getfree sizes kind = .ok m') (hs : 0 < m.sqrtNsites) :
    Takes (asked sizes m.sqrtNsites m.lengths kind) m m' ∧ m'.sqrtNsites = m.sqrtNsites ∧
      m'.lengths = left m.sqrtNsites m.lengths kind := by
  rw [getfree_eq] at h
  by_cases hfree : m.free kind = []
  · rw [if_pos hfree] at h
    obtain ⟨u, hu, htake⟩ := bind_ok h
    obtain ⟨htakes, hsqrt, hlengths⟩ := refill_ok hu
    have hne : u.free kind ≠ [] := by
      rw [Ne, ← lengths_eq_zero, hlengths, Function.update_self]
      omega
    obtain ⟨v, hv, hfits, hgone⟩ := takeFree_ok hne
    cases hv.symm.trans htake
    rw [asked, if_pos (lengths_eq_zero.mpr hfree)]
    exact ⟨htakes.trans hfits.takes, Gone.of_refill hfree hsqrt hlengths hgone⟩
  · rw [if_neg hfree] at h
    obtain ⟨v, hv, hfits, hgone⟩ := takeFree_ok hfree
    cases hv.symm.trans h
    rw [asked, left, if_neg (mt lengths_eq_zero.mp hfree), if_neg (mt lengths_eq_zero.mp hfree)]
    exact ⟨hfits.takes, hgone.sqrtNsites, hgone.lengths⟩

theorem getfree_fits (hb : m.bufList ≠ []) (hs : 0 < m.sqrtNsites)
    (hn : asked sizes m.sqrtNsites m.lengths kind ≤ m.memFree) :
    ∃ m', m.getfree sizes kind = .ok m' ∧ Fits (asked sizes m.sqrtNsites m.lengths kind) m m' := by
  rw [getfree_eq]
  by_cases hfree : m.free kind = []
  · rw [asked, if_pos (lengths_eq_zero.mpr hfree)] at hn ⊢
    rw [if_pos hfree]
    obtain ⟨u, hu, hfits⟩ := refill_fits hb hn
    obtain ⟨-, -, hlengths⟩ := refill_ok hu
    have hne : u.free kind ≠ [] := by
      rw [Ne, ← lengths_eq_zero, hlengths, Function.update_self]
      omega
    obtain ⟨v, hv, hrest, -⟩ := takeFree_ok hne
    rw [hu]
    exact ⟨v, hv, hfits.trans hrest⟩
  · rw [asked, if_neg (mt lengths_eq_zero.mp hfree), if_neg hfree]
    obtain ⟨v, hv, hfits, -⟩ := takeFree_ok hfree
    exact ⟨v, hv, hfits⟩

theorem run_ok {kinds : List NodeKind} (h : run (fun m kind => m.getfree sizes kind) m kinds = .ok m')
    (hs : 0 < m.sqrtNsites) : Takes (demand sizes m.sqrtNsites m.lengths kinds) m m' := by
  induction kinds generalizing m with
  | nil =>
    cases h
    exact ⟨Nat.le_refl _, Nat.le_refl _⟩
  | cons kind kinds ih =>
    rw [FallibleRun.run] at h
    split at h
    · rename_i u hu
      obtain ⟨htakes, hsqrt, hlengths⟩ := getfree_ok hu hs
      have hrest := ih h (hsqrt ▸ hs)
      rw [hsqrt, hlengths] at hrest
      exact htakes.trans hrest
    · cases h

theorem run_fits {kinds : List NodeKind} (hb : m.bufList ≠ []) (hs : 0 < m.sqrtNsites)
    (hn : demand sizes m.sqrtNsites m.lengths kinds ≤ m.memFree) :
    ∃ m', run (fun m kind => m.getfree sizes kind) m kinds = .ok m' ∧ m'.memAlloc = m.memAlloc := by
  induction kinds generalizing m with
  | nil => exact ⟨m, rfl, rfl⟩
  | cons kind kinds ih =>
    rw [demand] at hn
    obtain ⟨u, hu, hfits⟩ := getfree_fits hb hs ((Nat.le_add_right _ _).trans hn)
    obtain ⟨-, hsqrt, hlengths⟩ := getfree_ok hu hs
    have hfree := hfits.memFree
    obtain ⟨v, hv, halloc⟩ := ih (m := u) (hfits.bufList ▸ hb) (hsqrt ▸ hs) (by rw [hsqrt, hlengths]; omega)
    exact ⟨v, (run_cons hu).trans hv, halloc.trans hfits.memAlloc⟩

theorem table_ok (h : m.table n = .ok m') :
    Takes n m m' ∧ m'.sqrtNsites = m.sqrtNsites ∧ m'.lengths = m.lengths := by
  obtain ⟨r, hr, hm⟩ := bind_ok h
  obtain ⟨htakes, hkept⟩ := takes_of_myalloc hr
  cases hm
  refine ⟨⟨htakes.grows, htakes.taken⟩, hkept.sqrtNsites, ?_⟩
  funext kind
  rw [lengths, hand, hkept.free, lengths]

theorem table_fits (hb : m.bufList ≠ []) (hn : n ≤ m.memFree) : ∃ m', m.table n = .ok m' ∧ Fits n m m' := by
  obtain ⟨r, hr, hfits, -⟩ := myalloc_fits hb hn
  rw [SfMemory.table, hr]
  exact ⟨_, rfl, ⟨hfits.memAlloc, hfits.bufList, hfits.memFree⟩⟩

theorem begin_memAlloc (m : SfMemory) (nsites : Nat) : (m.begin nsites).memAlloc = m.memAlloc := combine_memAlloc

theorem calsfv_ok {sweep : Nat × List NodeKind} (h : m.calsfv sizes sweep = .ok m') :
    m.memAlloc ≤ m'.memAlloc ∧ bytes sizes sweep ≤ m'.memAlloc := by
  have hs : 0 < Nat.sqrt (sweep.1 + 4) := Nat.sqrt_pos.mpr (Nat.succ_pos _)
  obtain ⟨u, hu, h⟩ := bind_ok h
  obtain ⟨v, hv, hrun⟩ := bind_ok h
  obtain ⟨hutakes, husqrt, hulengths⟩ := table_ok hu
  obtain ⟨hvtakes, hvsqrt, hvlengths⟩ := table_ok hv
  have hsqrt : v.sqrtNsites = Nat.sqrt (sweep.1 + 4) := hvsqrt.trans husqrt
  have hlengths : v.lengths = fun _ => 0 := hvlengths.trans hulengths
  have hnodes := run_ok hrun (hsqrt ▸ hs)
  rw [hsqrt, hlengths] at hnodes
  have hall := hutakes.trans (hvtakes.trans hnodes)
  have htaken := hall.taken
  rw [begin_memFree] at htaken
  refine ⟨(m.begin_memAlloc sweep.1).ge.trans hall.grows, ?_⟩
  rw [bytes]
  omega

theorem Sound.fits (h : m.Sound) {sweep : Nat × List NodeKind} (hn : bytes sizes sweep ≤ m.memAlloc) :
    ∃ m', m.calsfv sizes sweep = .ok m' ∧ m'.memAlloc = m.memAlloc := by
  have hs : 0 < Nat.sqrt (sweep.1 + 4) := Nat.sqrt_pos.mpr (Nat.succ_pos _)
  have hpos : 0 < 4 * Nat.sqrt (sweep.1 + 4) * sizes.size .halfedge :=
    Nat.mul_pos (Nat.mul_pos (by omega) hs) (sizes.pos .halfedge)
  have htotal := (h.begin sweep.1).total
  rw [bytes, ← m.begin_memAlloc sweep.1, ← begin_memFree] at hn
  have hb : (m.begin sweep.1).bufList ≠ [] := by
    intro hnil
    rw [hnil, ← begin_memFree] at htotal
    have hzero : (m.begin sweep.1).memFree = 0 := htotal
    omega
  obtain ⟨u, hu, hufits⟩ := table_fits (n := 4 * Nat.sqrt (sweep.1 + 4) * sizes.size .halfedge) hb (by omega)
  obtain ⟨-, husqrt, hulengths⟩ := table_ok hu
  have hufree := hufits.memFree
  obtain ⟨v, hv, hvfits⟩ := table_fits (n := 2 * Nat.sqrt (sweep.1 + 4) * sizes.pointer)
    (hufits.bufList ▸ hb) (by omega)
  obtain ⟨-, hvsqrt, hvlengths⟩ := table_ok hv
  have hvfree := hvfits.memFree
  have hsqrt : v.sqrtNsites = Nat.sqrt (sweep.1 + 4) := hvsqrt.trans husqrt
  have hlengths : v.lengths = fun _ => 0 := hvlengths.trans hulengths
  have hrest : demand sizes v.sqrtNsites v.lengths sweep.2 ≤ v.memFree := by
    rw [hsqrt, hlengths]
    omega
  obtain ⟨w, hw, halloc⟩ := run_fits (hvfits.bufList ▸ hufits.bufList ▸ hb) (hsqrt ▸ hs) hrest
  have hrun : m.calsfv sizes sweep = .ok w := (bind_of_ok hu _).trans ((bind_of_ok hv _).trans hw)
  exact ⟨w, hrun, halloc.trans (hvfits.memAlloc.trans (hufits.memAlloc.trans (m.begin_memAlloc sweep.1)))⟩

theorem Sound.fits_iff (h : m.Sound) (sweep : Nat × List NodeKind) :
    (∃ m', m.calsfv sizes sweep = .ok m' ∧ m'.memAlloc = m.memAlloc) ↔ bytes sizes sweep ≤ m.memAlloc := by
  refine ⟨?_, h.fits⟩
  rintro ⟨m', hok, halloc⟩
  exact halloc ▸ (calsfv_ok hok).2

theorem run_bytes {sweeps : List (Nat × List NodeKind)} (h : run (SfMemory.calsfv sizes) m sweeps = .ok m') :
    m.memAlloc ≤ m'.memAlloc ∧ ∀ sweep ∈ sweeps, bytes sizes sweep ≤ m'.memAlloc := by
  induction sweeps generalizing m with
  | nil =>
    cases h
    exact ⟨Nat.le_refl _, fun sweep hsweep => (List.not_mem_nil hsweep).elim⟩
  | cons first sweeps ih =>
    rw [FallibleRun.run] at h
    split at h
    · rename_i u hu
      obtain ⟨hgrows, hfirst⟩ := calsfv_ok hu
      obtain ⟨hrest, hall⟩ := ih h
      refine ⟨hgrows.trans hrest, fun sweep hsweep => ?_⟩
      rcases List.mem_cons.mp hsweep with rfl | hsweep
      · exact hfirst.trans hrest
      · exact hall sweep hsweep
    · cases h

/-- A further diagram takes new memory exactly when it asks for more bytes than there are, and so never when
it is as one of those before. -/
theorem sweeps_settle (sizes : NodeSizes) (sweeps : List (Nat × List NodeKind)) :
    Ends (run (SfMemory.calsfv sizes) {} sweeps) fun m =>
      (∀ sweep ∈ sweeps, bytes sizes sweep ≤ m.memAlloc) ∧ ∀ sweep,
        (∃ m', m.calsfv sizes sweep = .ok m' ∧ m'.memAlloc = m.memAlloc) ↔ bytes sizes sweep ≤ m.memAlloc :=
  (sound_run sizes sweeps).mono fun _ hrun h => ⟨(run_bytes hrun).2, h.fits_iff⟩

end SfMemory

end VastNC
