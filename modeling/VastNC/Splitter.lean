import VastNC.Framing
import VastNC.Sender

/-! `net_udp_handler::process_input`: a datagram is cut into frames by the sizes that the
headers announce. The remaining length is unsigned and the announced size is not compared
with it. -/

namespace VastNC

open LittleEndian

/-- What the loop does to its surroundings, in order. Offsets count from the start of the
buffer; `Access.length` records the difference that the counter is set to. -/
inductive SplitEvent where
  | access (a : Access)
  | storeRemoteAddress (hostId : UInt64) (addr : IPaddr)
  | socketConnected (hostId : UInt64)
  | msgReceived (fromhost : UInt64) (off len : Nat)

namespace SplitEvent

def shift (p : Nat) : Access → SplitEvent
  | .read off len => .access (.read (p + off) len)
  | .length z => .access (.length z)

def Within (size : Nat) : SplitEvent → Prop
  | .access a => a.Within size
  | .msgReceived _ off len => off + len ≤ size
  | _ => True

end SplitEvent

def vastHeaderAt (buf : Nat → UInt8) (p : Nat) : VASTHeader :=
  VASTHeader.ofBytes (window buf p sizeofVASTHeader)

structure Splitter where
  buf : Nat → UInt8
  remoteAddr : IPaddr
  fromhost : UInt64

namespace Splitter

variable (s : Splitter)

def unicast : Bool := !(s.remoteAddr.host == 0 && s.remoteAddr.port == 0)

def tempId : UInt64 := if s.unicast then resolveHostID s.remoteAddr else s.fromhost

def frameEvents (p : Nat) (n : UInt64) (size : Nat) : List SplitEvent :=
  (({ msgtype := 0 } : Message).deserialize (fun i => s.buf (p + i)) size).trace.map (SplitEvent.shift p) ++
    (if s.unicast then
      [.storeRemoteAddress s.tempId s.remoteAddr, .socketConnected s.tempId]
    else []) ++
    [.msgReceived s.tempId (p - sizeofVASTHeader) (size + sizeofVASTHeader),
      .access (.read (p - sizeofVASTHeader) (size + sizeofVASTHeader)),
      .access (.length (n.toNat - size))]

/-- The loop with `n` bytes remaining and `p` at the next of them; `none` when the fuel runs out. -/
def loop : Nat → UInt64 → Nat → Option (List SplitEvent)
  | 0, _, _ => none
  | fuel + 1, n, p =>
    if n ≤ 4 then some []
    else
      let header := vastHeaderAt s.buf p
      let n := n - 4
      let p := p + sizeofVASTHeader
      if header.isVASTHeader = false then some [.access (.read (p - sizeofVASTHeader) sizeofVASTHeader)]
      else
        let size := header.msgSize.toNat
        (loop fuel (n - UInt64.ofNat size) (p + size)).map (fun events =>
          .access (.read (p - sizeofVASTHeader) sizeofVASTHeader) :: s.frameEvents p n size ++ events)

/-- Every range that the loop touches or hands on lies in the datagram, the counter never goes
below zero, and the loop ends. -/
def SplitsSafely (bytesTransferred : UInt64) : Prop :=
  ∃ fuel events, s.loop fuel bytesTransferred 0 = some events ∧
    ∀ e ∈ events, e.Within bytesTransferred.toNat

end Splitter

/-- The `n` bytes from `p` on are frames whose bodies they hold, up to a rest of at most four
bytes or one that does not start with the markers. -/
inductive WellFramed (buf : Nat → UInt8) : Nat → Nat → Prop
  | short {p n : Nat} : n ≤ 4 → WellFramed buf p n
  | foreign {p n : Nat} : 4 < n → (vastHeaderAt buf p).isVASTHeader = false → WellFramed buf p n
  | frame {p n : Nat} : (vastHeaderAt buf p).isVASTHeader = true →
    WellFramed buf (p + 4 + (vastHeaderAt buf p).msgSize.toNat) n →
      WellFramed buf p (4 + (vastHeaderAt buf p).msgSize.toNat + n)

namespace Splitter

variable {s : Splitter}

section Step

variable {fuel p : Nat} {n : UInt64}

theorem loop_short (h : n.toNat ≤ 4) : s.loop (fuel + 1) n p = some [] := by
  rw [loop, if_pos (UInt64.le_iff_toNat_le.mpr h)]

theorem loop_foreign (h : 4 < n.toNat) (hf : (vastHeaderAt s.buf p).isVASTHeader = false) :
    s.loop (fuel + 1) n p = some [.access (.read p 4)] := by
  have hn : ¬ n ≤ 4 := fun hle => absurd (UInt64.le_iff_toNat_le.mp hle) (by simpa using h)
  rw [loop, if_neg hn]
  simp only [hf, if_true, Nat.add_sub_cancel]
  rfl

theorem loop_frame (h : 4 < n.toNat) (hf : (vastHeaderAt s.buf p).isVASTHeader = true) :
    s.loop (fuel + 1) n p =
      (s.loop fuel (n - 4 - UInt64.ofNat (vastHeaderAt s.buf p).msgSize.toNat)
        (p + 4 + (vastHeaderAt s.buf p).msgSize.toNat)).map (fun events => .access (.read p 4) ::
          s.frameEvents (p + 4) (n - 4) (vastHeaderAt s.buf p).msgSize.toNat ++ events) := by
  have hn : ¬ n ≤ 4 := fun hle => absurd (UInt64.le_iff_toNat_le.mp hle) (by simpa using h)
  rw [loop, if_neg hn]
  simp only [hf, Bool.true_eq_false, if_false, Nat.add_sub_cancel]
  rfl

theorem toNat_sub_four (h : 4 < n.toNat) : (n - 4).toNat = n.toNat - 4 :=
  UInt64.toNat_sub_of_le _ _ (UInt64.le_iff_toNat_le.mpr h.le)

theorem toNat_rest {size : Nat} (h : 4 < n.toNat) (hs : size + 4 ≤ n.toNat) :
    (n - 4 - UInt64.ofNat size).toNat = n.toNat - 4 - size := by
  have hlt := n.toNat_lt
  have h4 := toNat_sub_four h
  have hz : (UInt64.ofNat size).toNat = size := by
    rw [UInt64.toNat_ofNat', Nat.mod_eq_of_lt (by omega)]
  rw [UInt64.toNat_sub_of_le _ _ (by rw [UInt64.le_iff_toNat_le]; omega), h4, hz]

end Step

theorem shift_within {p size total : Nat} {a : Access} (h : a.Within size) (hp : p + size ≤ total) :
    (SplitEvent.shift p a).Within total := by
  cases a with
  | read off len =>
    intro i h₁ h₂
    have hi := h (i - p) (by omega) (by omega)
    omega
  | length z => exact h

theorem frameEvents_within {p size total : Nat} {n : UInt64} (h4 : 4 ≤ p) (hn : size ≤ n.toNat)
    (hp : p + size ≤ total) : ∀ e ∈ s.frameEvents p n size, e.Within total := by
  intro e he
  simp only [frameEvents, List.mem_append, List.mem_cons, List.not_mem_nil, or_false] at he
  rcases he with (he | he) | rfl | rfl | rfl
  · obtain ⟨a, ha, rfl⟩ := List.mem_map.mp he
    exact shift_within (Message.deserialize_within _ a ha) hp
  · split at he
    · simp only [List.mem_cons, List.not_mem_nil, or_false] at he
      rcases he with rfl | rfl
      · trivial
      · trivial
    · cases he
  · simp only [SplitEvent.Within, sizeofVASTHeader]
    omega
  · exact Access.read_within (by simp only [sizeofVASTHeader]; omega)
  · simp only [SplitEvent.Within, Access.Within]
    omega

theorem loop_of_wellFramed {p k total : Nat} (h : WellFramed s.buf p k) (n : UInt64)
    (hn : n.toNat = k) (ht : p + k = total) :
    ∃ fuel events, s.loop fuel n p = some events ∧ ∀ e ∈ events, e.Within total := by
  induction h generalizing n with
  | short hk => exact ⟨1, [], loop_short (by omega), by simp⟩
  | foreign hk hf =>
    refine ⟨1, _, loop_foreign (by omega) hf, fun e he => ?_⟩
    rw [List.mem_singleton.mp he]
    exact Access.read_within (by omega)
  | @frame p k hf _ ih =>
    by_cases h4 : 4 < n.toNat
    · have hr : (n - 4 - UInt64.ofNat (vastHeaderAt s.buf p).msgSize.toNat).toNat =
          n.toNat - 4 - (vastHeaderAt s.buf p).msgSize.toNat := toNat_rest h4 (by omega)
      obtain ⟨fuel, events, hl, he⟩ := ih (n - 4 - UInt64.ofNat (vastHeaderAt s.buf p).msgSize.toNat)
        (by omega) (by omega)
      refine ⟨fuel + 1, _, by rw [loop_frame h4 hf, hl]; rfl, fun e hm => ?_⟩
      rcases List.mem_append.mp hm with hm | hm
      · rcases List.mem_cons.mp hm with rfl | hm
        · exact Access.read_within (by omega)
        · refine frameEvents_within (by omega) ?_ (by omega) e hm
          rw [toNat_sub_four h4]
          omega
      · exact he e hm
    · exact ⟨1, [], loop_short (by omega), by simp⟩

theorem wellFramed_of_loop {fuel p total : Nat} {n : UInt64} {events : List SplitEvent}
    (h : s.loop fuel n p = some events) (he : ∀ e ∈ events, e.Within total) :
    WellFramed s.buf p n.toNat := by
  induction fuel generalizing n p events with
  | zero => cases h
  | succ fuel ih =>
    by_cases h4 : 4 < n.toNat
    · cases hf : (vastHeaderAt s.buf p).isVASTHeader with
      | false => exact .foreign h4 hf
      | true =>
        rw [loop_frame h4 hf, Option.map_eq_some_iff] at h
        obtain ⟨rest, hrest, rfl⟩ := h
        -- the recorded difference is not negative, so the announced size is there
        have hz := he (.access (.length ((n - 4).toNat - (vastHeaderAt s.buf p).msgSize.toNat)))
          (by simp [frameEvents])
        simp only [SplitEvent.Within, Access.Within, toNat_sub_four h4] at hz
        have hr : (n - 4 - UInt64.ofNat (vastHeaderAt s.buf p).msgSize.toNat).toNat =
            n.toNat - 4 - (vastHeaderAt s.buf p).msgSize.toNat := toNat_rest h4 (by omega)
        have hw := ih hrest (fun e hm => he e (List.mem_append_right _ hm))
        have hn : n.toNat = 4 + (vastHeaderAt s.buf p).msgSize.toNat +
            (n - 4 - UInt64.ofNat (vastHeaderAt s.buf p).msgSize.toNat).toNat := by omega
        rw [hn]
        exact .frame hf hw
    · exact .short (by omega)

/-- A datagram is split safely exactly when every frame in it is as long as its header says. -/
theorem splitsSafely_iff (s : Splitter) (bytesTransferred : UInt64) :
    s.SplitsSafely bytesTransferred ↔ WellFramed s.buf 0 bytesTransferred.toNat := by
  constructor
  · rintro ⟨fuel, events, h, he⟩
    exact wellFramed_of_loop h he
  · intro h
    exact loop_of_wellFramed h _ rfl (Nat.zero_add _)

def truncated : Splitter :=
  ⟨memOf ((VASTHeader.build .regular 100).toBytes ++ [7]), ⟨0x0A000001, 1037, 0⟩, 5⟩

theorem truncated_not_split_safely : ¬ truncated.SplitsSafely 5 := by
  rintro ⟨fuel, events, h, he⟩
  have hw : WellFramed truncated.buf 0 5 := wellFramed_of_loop h he
  have hh : vastHeaderAt truncated.buf 0 = VASTHeader.build .regular 100 := by decide
  have hv : (vastHeaderAt truncated.buf 0).isVASTHeader = true := by rw [hh]; rfl
  have hs : (vastHeaderAt truncated.buf 0).msgSize.toNat = 100 := by rw [hh]; rfl
  generalize hn : 5 = n at hw
  cases hw with
  | short h4 => omega
  | foreign _ hf => rw [hv] at hf; cases hf
  | frame _ _ => omega

end Splitter

end VastNC
