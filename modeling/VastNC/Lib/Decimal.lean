import Mathlib

/-! Numbers in decimal notation: how they are printed, and the rule for what reads them digit by digit. -/

namespace Decimal

def digit (d : Nat) : UInt8 := UInt8.ofNat (48 + d)

def isDigit (c : UInt8) : Bool := decide (48 ≤ c) && decide (c ≤ 57)

def value (c : UInt8) : Nat := c.toNat - 48

/-- `%u`, and `%d` for a number that is not negative. -/
def print (n : Nat) : List UInt8 := (Nat.toDigits 10 n).map (fun c => UInt8.ofNat c.toNat)

variable {n : Nat}

theorem isDigit_iff {c : UInt8} : isDigit c = true ↔ 48 ≤ c.toNat ∧ c.toNat ≤ 57 := by
  simp [isDigit, UInt8.le_iff_toNat_le]

theorem isDigit_digit {d : Nat} (h : d < 10) : isDigit (digit d) = true := by
  revert h
  revert d
  decide

theorem value_digit {d : Nat} (h : d < 10) : value (digit d) = d := by
  rw [value, digit, UInt8.toNat_ofNat_of_lt' (by simp only [UInt8.size]; omega)]
  omega

theorem digitChar_eq {d : Nat} (h : d < 10) : UInt8.ofNat d.digitChar.toNat = digit d := by
  rw [Nat.toNat_digitChar_of_lt_ten h, digit]

theorem print_of_lt (h : n < 10) : print n = [digit n] := by
  rw [print, Nat.toDigits_of_lt_base h, List.map_singleton, digitChar_eq h]

theorem print_of_le (h : 10 ≤ n) : print n = print (n / 10) ++ [digit (n % 10)] := by
  have hd : n % 10 < 10 := Nat.mod_lt n (by decide)
  rw [print, Nat.toDigits_of_base_le (by decide) h, List.map_append, List.map_singleton, digitChar_eq hd]
  rfl

theorem isDigit_of_mem_print {c : UInt8} (h : c ∈ print n) : isDigit c = true := by
  induction n using Nat.strongRecOn with
  | ind n ih =>
    by_cases hn : n < 10
    · rw [print_of_lt hn, List.mem_singleton] at h
      rw [h]
      exact isDigit_digit hn
    · rw [print_of_le (by omega), List.mem_append, List.mem_singleton] at h
      rcases h with h | h
      · exact ih (n / 10) (by omega) h
      · rw [h]
        exact isDigit_digit (Nat.mod_lt n (by decide))

theorem length_print_le {k : Nat} (hk : 0 < k) (h : n < 10 ^ k) : (print n).length ≤ k := by
  rw [print, List.length_map]
  exact (Nat.length_toDigits_le_iff (by decide) hk).mpr h

/-- What reads one digit after the other reads a printed number, when it reads the first digit and goes on
from what it has read. -/
theorem foldl_print {σ : Type*} {step : σ → UInt8 → σ} {start : σ} (read : Nat → σ)
    (hfirst : ∀ d, d < 10 → step start (digit d) = read d)
    (hnext : ∀ m d, d < 10 → step (read m) (digit d) = read (m * 10 + d)) (n : Nat) :
    (print n).foldl step start = read n := by
  induction n using Nat.strongRecOn with
  | ind n ih =>
    by_cases hn : n < 10
    · rw [print_of_lt hn]
      exact hfirst n hn
    · rw [print_of_le (by omega), List.foldl_append, ih (n / 10) (by omega)]
      have hd : n % 10 < 10 := Nat.mod_lt n (by decide)
      calc step (read (n / 10)) (digit (n % 10)) = read (n / 10 * 10 + n % 10) := hnext _ _ hd
        _ = read n := by rw [Nat.div_add_mod']

def isSpace (c : UInt8) : Bool := c == 32 || (decide (9 ≤ c) && decide (c ≤ 13))

/-- The number that a string starts with. -/
def leading (bs : List UInt8) : Nat := (bs.takeWhile isDigit).foldl (fun n c => n * 10 + value c) 0

/-- The same with a sign in front. -/
def signed : List UInt8 → Int
  | [] => 0
  | c :: cs => if c = 45 then -(leading cs) else if c = 43 then leading cs else leading (c :: cs)

/-- `atoi`; for a number that is no `int` its result is undefined. -/
def atoi (undefined : List UInt8 → Int) (bs : List UInt8) : Int :=
  let n := signed (bs.dropWhile isSpace)
  if -2 ^ 31 ≤ n ∧ n < 2 ^ 31 then n else undefined bs

theorem leading_print (n : Nat) : leading (print n) = n := by
  have hall : (print n).takeWhile isDigit = print n := by
    rw [List.takeWhile_eq_self_iff]
    exact fun c hc => isDigit_of_mem_print hc
  rw [leading, hall]
  apply foldl_print id
  · intro d hd
    simp [value_digit hd]
  · intro m d hd
    simp [value_digit hd]

theorem print_ne_nil (n : Nat) : print n ≠ [] := by simp [print, Nat.toDigits_ne_nil]

theorem atoi_print (undefined : List UInt8 → Int) (h : n < 2 ^ 31) : atoi undefined (print n) = n := by
  obtain ⟨c, cs, hc⟩ := List.exists_cons_of_ne_nil (print_ne_nil n)
  have hd := isDigit_iff.mp (isDigit_of_mem_print (show c ∈ print n by simp [hc]))
  have hne {d : UInt8} (hlt : d.toNat < 48) : c ≠ d := by
    rintro rfl
    omega
  have hspace : isSpace c = false := by
    simp [isSpace, hne (show (32 : UInt8).toNat < 48 by decide), UInt8.lt_iff_toNat_lt]
    omega
  have hdrop : (print n).dropWhile isSpace = c :: cs := by
    rw [hc, List.dropWhile_cons_of_neg (by simp [hspace])]
  have hsigned : signed (c :: cs) = n := by
    rw [signed, if_neg (hne (by decide)), if_neg (hne (by decide)), ← hc, leading_print]
  simp only [atoi, hdrop, hsigned]
  exact if_pos (by omega)

end Decimal
