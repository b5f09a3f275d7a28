import VastNC.Lib.CString
import VastNC.VastMessage

/-! The two equalities of `Message`: `operator==` compares the content as a C string,
`contentEquals` as bytes. -/

namespace VastNC

open CString LittleEndian

namespace Message

/-- `operator==`. -/
def equals (m other : Message) : Bool :=
  m.fromId == other.fromId && m.data.length == other.data.length && m.msgtype == other.msgtype &&
    m.msggroup == other.msggroup && m.reliable == other.reliable && m.priority == other.priority &&
    m.alloc == other.alloc && m.free == other.free &&
    strncmp m.data other.data (min m.data.length other.data.length) == 0 && m.targets == other.targets

/-- The fields that both equalities compare. -/
structure SameFields (m other : Message) : Prop where
  fromId : m.fromId = other.fromId
  msgtype : m.msgtype = other.msgtype
  msggroup : m.msggroup = other.msggroup
  reliable : m.reliable = other.reliable
  priority : m.priority = other.priority
  targets : m.targets = other.targets

variable {m other : Message}

theorem sameFields_contentEquals : m.contentEquals other = true ↔ m.SameFields other ∧ m.data = other.data := by
  rw [contentEquals_iff]
  constructor
  · rintro ⟨h1, h2, h3, h4, h5, h6, h7⟩
    exact ⟨⟨h1, h2, h3, h4, h5, h7⟩, h6⟩
  · rintro ⟨⟨h1, h2, h3, h4, h5, h7⟩, h6⟩
    exact ⟨h1, h2, h3, h4, h5, h6, h7⟩

theorem equals_iff : m.equals other = true ↔
    m.SameFields other ∧ m.alloc = other.alloc ∧ m.free = other.free ∧
      m.data.length = other.data.length ∧ text m.data = text other.data := by
  by_cases hl : m.data.length = other.data.length
  · have hcmp : strncmp m.data other.data (min m.data.length other.data.length) = 0 ↔
        text m.data = text other.data := by
      rw [← hl, Nat.min_self]
      exact strncmp_eq_zero_iff hl
    simp only [equals, Bool.and_eq_true, beq_iff_eq, hcmp]
    constructor
    · rintro ⟨⟨⟨⟨⟨⟨⟨⟨⟨h1, _⟩, h2⟩, h3⟩, h4⟩, h5⟩, ha⟩, hf⟩, ht⟩, h6⟩
      exact ⟨⟨h1, h2, h3, h4, h5, h6⟩, ha, hf, hl, ht⟩
    · rintro ⟨⟨h1, h2, h3, h4, h5, h6⟩, ha, hf, _, ht⟩
      exact ⟨⟨⟨⟨⟨⟨⟨⟨⟨h1, hl⟩, h2⟩, h3⟩, h4⟩, h5⟩, ha⟩, hf⟩, ht⟩, h6⟩
  · refine iff_of_false (fun h => hl ?_) (fun h => hl h.2.2.2.1)
    simp only [equals, Bool.and_eq_true, beq_iff_eq] at h
    exact h.1.1.1.1.1.1.1.1.2

/-- Messages that agree in everything but the content are told apart by `operator==` only by a
difference in front of the first zero byte, or by the place of that byte. -/
theorem message_equalities_iff (m other : Message) :
    (m.alloc = other.alloc → m.free = other.free →
      (m.equals other = true ↔ m.contentEquals other = true)) ↔
    (m.alloc = other.alloc → m.free = other.free → m.SameFields other →
      m.data.length = other.data.length → text m.data = text other.data → m.data = other.data) := by
  refine forall_congr' fun ha => forall_congr' fun hf => ?_
  rw [equals_iff, sameFields_contentEquals]
  constructor
  · intro h hs hl ht
    exact (h.mp ⟨hs, ha, hf, hl, ht⟩).2
  · intro h
    constructor
    · rintro ⟨hs, -, -, hl, ht⟩
      exact ⟨hs, h hs hl ht⟩
    · rintro ⟨hs, hd⟩
      exact ⟨hs, ha, hf, congrArg List.length hd, congrArg text hd⟩

def withId (id : UInt64) : Message :=
  { msgtype := 1, data := toLE 8 id.toNat, curr := 8, free := vastMsgsiz - 8 }

theorem store_withId (id : UInt64) : ({ msgtype := 1 } : Message).store (toLE 8 id.toNat) = some (withId id) := by
  simp [store, expand, addSize, withId, vastMsgsiz]

/-- The ids 256 and 512 differ behind a zero byte. -/
theorem message_equalities_ids : ∃ m other : Message,
    ({ msgtype := 1 } : Message).store (toLE 8 256) = some m ∧
      ({ msgtype := 1 } : Message).store (toLE 8 512) = some other ∧
      m.alloc = other.alloc ∧ m.free = other.free ∧ m.equals other = true ∧
      m.contentEquals other = false :=
  ⟨withId 256, withId 512, store_withId 256, store_withId 512, by decide⟩

end Message

end VastNC
