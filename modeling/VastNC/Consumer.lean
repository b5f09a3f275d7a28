import VastNC.Message

/-! `net_udpNC_consumer`: the last stage before the sink, which drops packets for other
hosts and packets that are not newer than the last one of their sender. -/

namespace VastNC

abbrev Orderings := Std.ExtTreeMap UInt64 UInt8

def lowestResetPacketOrderingNumber : UInt8 := 240

def highestResetAcceptingOrderingNumber : UInt8 := 10

/-- What a call leaves behind: the orderings, the packet handed to the sink, and whether
the decoder's pool was cleared. -/
structure Consumed where
  recvdOrdering : Orderings
  handed : Option (UDPNCMessage × IPaddr) := none
  cleared : Bool := false

namespace Consumer

def encodedPackets : Fault :=
  .logicError "net_udpNC_consumer::process_input: Should not have encoded packets here\n"

/-- The branches of `order_input`: `none` when the packet is ignored, else the orderings
before the last packet number is saved and whether the pool is cleared. -/
def acceptOrdering (recvd : Orderings) (fromId : UInt64) (m : UDPNCMessage) :
    Option (Orderings × Bool) :=
  if m.getMessageSize = 0 then some (recvd.insert fromId m.getOrdering, false)
  else if fromId = netIdUnassigned then some (recvd, false)
  else
    match recvd[fromId]? with
    | none => some (recvd.insert fromId m.getOrdering, false)
    | some last =>
      if lowestResetPacketOrderingNumber ≤ last ∧
          m.getOrdering < highestResetAcceptingOrderingNumber then
        some (recvd.insert fromId 0, true)
      else if m.getOrdering ≤ last then none
      else some (recvd, false)

def orderInput (recvd : Orderings) (m : UDPNCMessage) (socketAddr : IPaddr) :
    Except Fault Consumed := do
  let fromId ← m.getFirstFromId
  match acceptOrdering recvd fromId m with
  | none => .ok { recvdOrdering := recvd }
  | some (recvd, cleared) =>
    .ok { recvdOrdering := recvd.insert fromId m.getOrdering
          handed := some (m, socketAddr)
          cleared }

/-- `publicIP` is `abs_netudp->getPublicIPaddr ()`. -/
def filterInput (publicIP : IPaddr) (recvd : Orderings) (m : UDPNCMessage) (socketAddr : IPaddr) :
    Except Fault Consumed :=
  match m.toAddrs with
  | [] => .ok { recvdOrdering := recvd }
  | addr :: _ =>
    if publicIP.equals addr then orderInput recvd m socketAddr else .ok { recvdOrdering := recvd }

def processInput (publicIP : IPaddr) (recvd : Orderings) (m : UDPNCMessage) (socketAddr : IPaddr) :
    Except Fault Consumed :=
  if 1 < m.pktIds.length then .error encodedPackets
  else filterInput publicIP recvd m socketAddr

section Spec

variable {publicIP socketAddr : IPaddr} {recvd : Orderings} {m : UDPNCMessage} {fromId g : UInt64}

theorem acceptOrdering_isSome_iff :
    (acceptOrdering recvd fromId m).isSome = true ↔
      m.getMessageSize = 0 ∨ fromId = netIdUnassigned ∨ ∀ last, recvd[fromId]? = some last →
        last < m.getOrdering ∨ (lowestResetPacketOrderingNumber ≤ last ∧
          m.getOrdering < highestResetAcceptingOrderingNumber) := by
  by_cases hz : m.getMessageSize = 0
  · simp [acceptOrdering, hz]
  by_cases hf : fromId = netIdUnassigned
  · simp [acceptOrdering, hz, hf]
  cases hr : recvd[fromId]? with
  | none => simp only [acceptOrdering, hz, hf, hr, if_false]; simp
  | some last =>
    by_cases hw : lowestResetPacketOrderingNumber ≤ last ∧
        m.getOrdering < highestResetAcceptingOrderingNumber
    · simp only [acceptOrdering, hz, hf, hr, hw, if_false]
      simp [hw]
    · by_cases hle : m.getOrdering ≤ last
      · simp only [acceptOrdering, hz, hf, hr, hw, hle, if_false]
        simp [hle, hw]
      · simp only [acceptOrdering, hz, hf, hr, hw, hle, if_false]
        simp [UInt8.not_le.mp hle]

theorem acceptOrdering_other {r : Orderings × Bool}
    (h : acceptOrdering recvd fromId m = some r) (hg : g ≠ fromId) : r.1[g]? = recvd[g]? := by
  have hi (v : UInt8) : (recvd.insert fromId v)[g]? = recvd[g]? := by
    rw [Std.ExtTreeMap.getElem?_insert, if_neg (by simpa using hg.symm)]
  by_cases hz : m.getMessageSize = 0
  · rw [acceptOrdering, if_pos hz, Option.some.injEq] at h
    rw [← h, hi]
  by_cases hf : fromId = netIdUnassigned
  · rw [acceptOrdering, if_neg hz, if_pos hf, Option.some.injEq] at h
    rw [← h]
  cases hr : recvd[fromId]? with
  | none =>
    simp only [acceptOrdering, hz, hf, hr, if_false, Option.some.injEq] at h
    rw [← h, hi]
  | some last =>
    simp only [acceptOrdering, hz, hf, hr, if_false] at h
    split at h
    · rw [← Option.some.inj h, hi]
    · split at h
      · cases h
      · rw [← Option.some.inj h]

theorem orderInput_spec (recvd : Orderings) (socketAddr : IPaddr) (hm : m.fromIds = [fromId]) :
    ∃ r, orderInput recvd m socketAddr = .ok r ∧
      (∀ g, g ≠ fromId → r.recvdOrdering[g]? = recvd[g]?) ∧
      (((acceptOrdering recvd fromId m).isSome = true ∧ r.handed = some (m, socketAddr) ∧
          r.recvdOrdering[fromId]? = some m.getOrdering) ∨
        ((acceptOrdering recvd fromId m).isSome = false ∧ r = { recvdOrdering := recvd })) := by
  have hf : m.getFirstFromId = .ok fromId := by rw [UDPNCMessage.getFirstFromId, hm, front_cons]
  cases ha : acceptOrdering recvd fromId m with
  | none =>
    refine ⟨{ recvdOrdering := recvd }, ?_, fun _ _ => rfl, .inr ⟨rfl, rfl⟩⟩
    simp only [orderInput, hf, ha, bind, Except.bind]
  | some a =>
    refine ⟨⟨a.1.insert fromId m.getOrdering, some (m, socketAddr), a.2⟩, ?_, fun g hg => ?_,
      .inl ⟨rfl, rfl, by simp⟩⟩
    · simp only [orderInput, hf, ha, bind, Except.bind]
    · rw [Std.ExtTreeMap.getElem?_insert, if_neg (by simpa using hg.symm),
        acceptOrdering_other ha hg]

theorem processInput_mine {addr : IPaddr} (hids : m.pktIds.length ≤ 1) (ha : m.toAddrs = [addr])
    (hp : publicIP.equals addr = true) :
    processInput publicIP recvd m socketAddr = orderInput recvd m socketAddr := by
  rw [processInput, if_neg (by omega), filterInput, ha]
  simp only [hp, if_true]

theorem processInput_notMine (recvd : Orderings) (socketAddr : IPaddr) (hids : m.pktIds.length ≤ 1)
    (ha : ∀ addr, m.toAddrs.head? = some addr → publicIP.equals addr = false) :
    processInput publicIP recvd m socketAddr = .ok { recvdOrdering := recvd } := by
  rw [processInput, if_neg (by omega), filterInput]
  cases hl : m.toAddrs with
  | nil => rfl
  | cons addr rest => simp only [ha addr (by rw [hl]; rfl), Bool.false_eq_true, if_false]

theorem processInput_returns (publicIP : IPaddr) (recvd : Orderings) (socketAddr : IPaddr)
    (hids : m.pktIds.length ≤ 1) (hm : m.toAddrs.length = m.fromIds.length) :
    ∃ r, processInput publicIP recvd m socketAddr = .ok r := by
  rw [processInput, if_neg (by omega), filterInput]
  cases ha : m.toAddrs with
  | nil => exact ⟨_, rfl⟩
  | cons addr rest =>
    obtain ⟨fromId, fs, hf⟩ := List.exists_cons_of_length_pos (show 0 < m.fromIds.length by simp [← hm, ha])
    dsimp only
    split
    · simp only [orderInput, UDPNCMessage.getFirstFromId, hf, front_cons, bind, Except.bind]
      cases acceptOrdering recvd fromId m with
      | none => exact ⟨_, rfl⟩
      | some r => exact ⟨_, rfl⟩
    · exact ⟨_, rfl⟩

theorem processInput_frame {r : Consumed} (h : processInput publicIP recvd m socketAddr = .ok r)
    (hg : m.fromIds.head? ≠ some g) : r.recvdOrdering[g]? = recvd[g]? := by
  by_cases hids : 1 < m.pktIds.length
  · simp [processInput, hids] at h
  rw [processInput, if_neg hids, filterInput] at h
  cases hl : m.toAddrs with
  | nil =>
    rw [hl] at h
    rw [← Except.ok.inj h]
  | cons addr rest =>
    simp only [hl] at h
    cases hp : publicIP.equals addr with
    | false =>
      simp only [hp, Bool.false_eq_true, if_false, Except.ok.injEq] at h
      rw [← h]
    | true =>
      simp only [hp, if_true] at h
      cases hf : m.fromIds with
      | nil => simp [orderInput, UDPNCMessage.getFirstFromId, hf, front, bind, Except.bind] at h
      | cons f fs =>
        have hne : g ≠ f := by
          rintro rfl
          exact hg (by rw [hf]; rfl)
        have hfirst : m.getFirstFromId = .ok f := by
          rw [UDPNCMessage.getFirstFromId, hf, front_cons]
        cases ha : acceptOrdering recvd f m with
        | none =>
          simp only [orderInput, hfirst, ha, bind, Except.bind, Except.ok.injEq] at h
          rw [← h]
        | some a =>
          simp only [orderInput, hfirst, ha, bind, Except.bind, Except.ok.injEq] at h
          rw [← h, Std.ExtTreeMap.getElem?_insert, if_neg (by simpa using hne.symm),
            acceptOrdering_other ha hne]

end Spec

end Consumer

end VastNC
