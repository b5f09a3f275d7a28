import VastNC.Lib.CString
import VastNC.Lib.Decimal
import VastNC.Types

/-! The text of an `IPaddr`: printed by `getString`, read back by `parseIP`. -/

namespace VastNC.IPaddr

open Decimal CString

def dot : UInt8 := 46

def colon : UInt8 := 58

/-- `%d.%d.%d.%d:%u`. -/
def getString (a : IPaddr) : List UInt8 :=
  print ((a.host >>> 24) &&& 0xff).toNat ++ dot :: (print ((a.host >>> 16) &&& 0xff).toNat ++
    dot :: (print ((a.host >>> 8) &&& 0xff).toNat ++ dot :: (print (a.host &&& 0xff).toNat ++
      colon :: print a.port.toNat)))

/-- One character of the constructor's loop, which keeps the octets so far and the current one. Other
characters than digits and dots are passed over. -/
def scan (s : UInt32 × UInt32) (c : UInt8) : UInt32 × UInt32 :=
  if isDigit c then (s.1, s.2 * 10 + UInt32.ofNat (value c))
  else if c = dot then ((s.1 <<< 8) + s.2, 0)
  else s

/-- `IPaddr (const char *, uint16_t)`. -/
def ofString (ipString : Option (List UInt8)) (p : UInt16) : IPaddr :=
  match ipString with
  | some bs =>
    let s := (text bs).foldl scan (0, 0)
    ⟨(s.1 <<< 8) + s.2, p, 0⟩
  | none => ⟨0, p, 0⟩

/-- `parseIP`: the address afterwards and the result. -/
def parseIP (undefined : List UInt8 → Int) (addr : IPaddr) (instr : List UInt8) : IPaddr × Int :=
  if colon ∈ instr then
    let portPart := instr.idxOf colon
    let port := atoi undefined (text (instr.drop (portPart + 1)))
    if port ≤ 0 ∨ port ≥ 65535 then (addr, -1)
    else (ofString (some (text (instr.take portPart))) (UInt16.ofNat port.toNat), 0)
  else (addr, -1)

/-- The octets with the dots between them. -/
def hostText (host : UInt32) : List UInt8 :=
  print ((host >>> 24) &&& 0xff).toNat ++ dot :: (print ((host >>> 16) &&& 0xff).toNat ++
    dot :: (print ((host >>> 8) &&& 0xff).toNat ++ dot :: print (host &&& 0xff).toNat))

theorem getString_eq (a : IPaddr) : a.getString = hostText a.host ++ colon :: print a.port.toNat := by
  simp [getString, hostText]

theorem mem_hostText {host : UInt32} {c : UInt8} (h : c ∈ hostText host) : isDigit c = true ∨ c = dot := by
  simp only [hostText, List.mem_append, List.mem_cons] at h
  rcases h with h | h | h | h | h | h | h
  all_goals first | exact Or.inr h | exact Or.inl (isDigit_of_mem_print h)

theorem text_eq_self {bs : List UInt8} (h : ∀ c ∈ bs, c ≠ 0) : text bs = bs := by
  rw [text, List.takeWhile_eq_self_iff]
  simpa using h

theorem ne_of_isDigit {c d : UInt8} (hc : isDigit c = true) (hd : isDigit d = false) : c ≠ d := by
  rintro rfl
  simp [hc] at hd

theorem text_hostText (host : UInt32) : text (hostText host) = hostText host := by
  apply text_eq_self
  intro c hc
  rcases mem_hostText hc with h | rfl
  · exact ne_of_isDigit h (by decide)
  · decide

theorem text_print (n : Nat) : text (print n) = print n :=
  text_eq_self fun _ hc => ne_of_isDigit (isDigit_of_mem_print hc) (by decide)

theorem colon_notMem_hostText (host : UInt32) : colon ∉ hostText host := by
  intro h
  rcases mem_hostText h with h | h
  · exact absurd h (by decide)
  · exact absurd h (by decide)

theorem scan_print (i : UInt32) (n : Nat) : (print n).foldl scan (i, 0) = (i, UInt32.ofNat n) := by
  apply foldl_print (fun n => (i, UInt32.ofNat n))
  · intro d hd
    simp [scan, isDigit_digit hd, value_digit hd]
  · intro m d hd
    simp [scan, isDigit_digit hd, value_digit hd]

theorem scan_dot (s : UInt32 × UInt32) : scan s dot = ((s.1 <<< 8) + s.2, 0) := rfl

theorem toNat_octet (host : UInt32) (k : UInt32) :
    ((host >>> k) &&& 0xff).toNat = host.toNat / 2 ^ (k.toNat % 32) % 256 := by
  rw [UInt32.toNat_and, UInt32.toNat_shiftRight, Nat.shiftRight_eq_div_pow]
  exact Nat.and_two_pow_sub_one_eq_mod _ 8

theorem toNat_next (i t : UInt32) : ((i <<< 8) + t).toNat = (i.toNat * 256 + t.toNat) % 2 ^ 32 := by
  rw [UInt32.toNat_add, UInt32.toNat_shiftLeft, Nat.shiftLeft_eq]
  simp

theorem octets (host : UInt32) :
    ((((((((0 : UInt32) <<< 8) + ((host >>> 24) &&& 0xff)) <<< 8) + ((host >>> 16) &&& 0xff)) <<< 8) +
      ((host >>> 8) &&& 0xff)) <<< 8) + (host &&& 0xff) = host := by
  have hlt := host.toNat_lt
  have h24 : ((host >>> 24) &&& 0xff).toNat = host.toNat / 2 ^ 24 % 256 := toNat_octet host 24
  have h16 : ((host >>> 16) &&& 0xff).toNat = host.toNat / 2 ^ 16 % 256 := toNat_octet host 16
  have h8 : ((host >>> 8) &&& 0xff).toNat = host.toNat / 2 ^ 8 % 256 := toNat_octet host 8
  have h0 : (host &&& 0xff).toNat = host.toNat % 256 := by
    rw [UInt32.toNat_and]
    exact Nat.and_two_pow_sub_one_eq_mod _ 8
  apply UInt32.toNat_inj.mp
  rw [toNat_next, toNat_next, toNat_next, toNat_next, h24, h16, h8, h0, UInt32.toNat_zero]
  omega

theorem ofString_hostText (host : UInt32) (p : UInt16) : ofString (some (hostText host)) p = ⟨host, p, 0⟩ := by
  simp only [ofString, text_hostText]
  simp only [hostText, List.foldl_append, List.foldl_cons, scan_print, scan_dot, UInt32.ofNat_toNat, octets]

/-- The text fits the 30 bytes that are there for it and its zero. -/
theorem length_getString_lt (a : IPaddr) : a.getString.length < 30 := by
  have hoctet (x : UInt32) : (print (x &&& 0xff).toNat).length ≤ 3 := by
    apply length_print_le (by decide)
    rw [UInt32.toNat_and]
    exact lt_of_le_of_lt Nat.and_le_right (by decide)
  have h1 := hoctet (a.host >>> 24)
  have h2 := hoctet (a.host >>> 16)
  have h3 := hoctet (a.host >>> 8)
  have h4 := hoctet a.host
  have hport : (print a.port.toNat).length ≤ 5 := by
    have hlt := a.port.toNat_lt
    exact length_print_le (by decide) (by omega)
  simp only [getString, List.length_append, List.length_cons]
  omega

theorem parseIP_getString (undefined : List UInt8 → Int) (old a : IPaddr) :
    parseIP undefined old a.getString =
      if a.port = 0 ∨ a.port = 65535 then (old, -1) else (⟨a.host, a.port, 0⟩, 0) := by
  have hlt := a.port.toNat_lt
  have hcolon : colon ∈ a.getString := by simp [getString_eq]
  have hfind : a.getString.idxOf colon = (hostText a.host).length := by
    rw [getString_eq, List.idxOf_append_of_notMem (colon_notMem_hostText a.host), List.idxOf_cons_self]
    rfl
  have hhost : a.getString.take (hostText a.host).length = hostText a.host := by
    rw [getString_eq, List.take_left]
  have hport : a.getString.drop ((hostText a.host).length + 1) = print a.port.toNat := by
    rw [getString_eq, ← List.drop_drop, List.drop_left]
    rfl
  have hatoi : atoi undefined (text (print a.port.toNat)) = a.port.toNat := by
    rw [text_print, atoi_print undefined (by omega)]
  simp only [parseIP, if_pos hcolon, hfind, hhost, hport, hatoi]
  have hiff : ((a.port.toNat : Int) ≤ 0 ∨ (a.port.toNat : Int) ≥ 65535) ↔ a.port = 0 ∨ a.port = 65535 := by
    simp only [← UInt16.toNat_inj, UInt16.toNat_zero, UInt16.reduceToNat]
    omega
  simp only [hiff, text_hostText, ofString_hostText]
  simp

theorem parseIP_unchanged {undefined : List UInt8 → Int} {old : IPaddr} {instr : List UInt8}
    (h : (parseIP undefined old instr).2 = -1) : (parseIP undefined old instr).1 = old := by
  simp only [parseIP] at h ⊢
  split
  · split
    · rfl
    · rename_i hcolon hrange
      simp [hcolon, hrange] at h
  · rfl

/-- An address with a port is read back unless the port is the last one, and where -1 is returned nothing
changes. -/
theorem address_text_round_trip (undefined : List UInt8 → Int) (old a : IPaddr) (h : a.port ≠ 0) :
    ((parseIP undefined old a.getString).2 = 0 ∧
      (parseIP undefined old a.getString).1.host = a.host ∧
      (parseIP undefined old a.getString).1.port = a.port ↔ a.port ≠ 65535) ∧
    ∀ instr, (parseIP undefined old instr).2 = -1 → (parseIP undefined old instr).1 = old := by
  refine ⟨?_, fun _ => parseIP_unchanged⟩
  rw [parseIP_getString]
  by_cases hlast : a.port = 65535
  · simp [hlast]
  · simp [h, hlast]

theorem address_text_round_trip_local :
    (parseIP (fun _ => 0) default (getString ⟨0x7f000001, 1037, 0⟩)).2 = 0 ∧
    (parseIP (fun _ => 0) default (getString ⟨0x7f000001, 1037, 0⟩)).1.host = 0x7f000001 ∧
    (parseIP (fun _ => 0) default (getString ⟨0x7f000001, 1037, 0⟩)).1.port = 1037 :=
  (address_text_round_trip (fun _ => 0) default ⟨0x7f000001, 1037, 0⟩ (by decide)).1.mpr (by decide)

theorem last_port_rejected : ¬ ∀ (undefined : List UInt8 → Int) (old a : IPaddr), a.port ≠ 0 →
    (parseIP undefined old a.getString).2 = 0 ∧
      (parseIP undefined old a.getString).1.host = a.host ∧
      (parseIP undefined old a.getString).1.port = a.port := by
  intro h
  have hres := (h (fun _ => 0) default ⟨0x7f000001, 65535, 0⟩ (by decide)).1
  rw [parseIP_getString] at hres
  simp at hres

end VastNC.IPaddr
