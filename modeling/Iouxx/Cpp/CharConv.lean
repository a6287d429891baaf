import Iouxx.Cpp.Error
import Mathlib.Data.List.TakeWhile
import Mathlib.Data.List.Induction
import Mathlib.Tactic.IntervalCases
import Mathlib.Tactic.Ring

/-!
# Numerals: `std::from_chars` and the integer formats of `std::format`

`fromChars base max s` reads the longest run of digits at the front of `s` for an unsigned type with
largest value `max`: it fails with `invalid_argument` if there is no digit, with
`result_out_of_range` if the number does not fit, and otherwise returns the number and what stands
behind the digits. A sign, a blank or a prefix such as `0x` is no digit. `toChars` is the text of a
number (`{}`, `{:x}`, `{:X}`), `toChars4` the one with four digits at least (`{:04x}`, `{:04X}`).

* `fromChars_eq_ok_iff`: what is read to the end is a nonempty list of digits;
* `fromCharsInt32_iff`: for a signed type it can also be a zero with a minus sign;
* `value_toChars`, `value_toChars4`: the text of a number has its value;
* `toChars_value`: a decimal numeral without leading zeros is the text of its value.
-/

namespace Iouxx.Cpp.CharConv

open Iouxx.Cpp.Error

/-! ### Digits -/

/-- The value of a digit, of either case. -/
def digitValue (c : Char) : Option ℕ :=
  if '0' ≤ c ∧ c ≤ '9' then some (c.toNat - 48)
  else if 'a' ≤ c ∧ c ≤ 'z' then some (c.toNat - 87)
  else if 'A' ≤ c ∧ c ≤ 'Z' then some (c.toNat - 55)
  else none

/-- A digit of the base. -/
def isDigit (base : ℕ) (c : Char) : Bool := (digitValue c).any (· < base)

/-- One more digit. -/
def pushDigit (base n : ℕ) (c : Char) : ℕ := base * n + (digitValue c).getD 0

/-- The value of a list of digits. -/
def value (base : ℕ) (s : List Char) : ℕ := s.foldl (pushDigit base) 0

/-- `std::from_chars` on an unsigned type. -/
def fromChars (base max : ℕ) (s : List Char) : Except Errc (ℕ × List Char) :=
  if s.takeWhile (isDigit base) = [] then .error .invalidArgument
  else if max < value base (s.takeWhile (isDigit base)) then .error .resultOutOfRange
  else .ok (value base (s.takeWhile (isDigit base)), s.dropWhile (isDigit base))

/-- The digit `d` in lower or upper case. -/
def digitChar (upper : Bool) (d : ℕ) : Char := if upper then d.digitChar.toUpper else d.digitChar

/-- The text of a number. -/
def toChars (base : ℕ) (upper : Bool) (n : ℕ) : List Char :=
  (Nat.toDigits base n).map fun c => if upper then c.toUpper else c

/-- The text of a number, filled up with zeros to four characters. -/
def toChars4 (base : ℕ) (upper : Bool) (n : ℕ) : List Char := (toChars base upper n).leftpad 4 '0'

theorem isDigit_iff {base : ℕ} {c : Char} :
    isDigit base c = true ↔ ∃ d < base, digitValue c = some d := by
  unfold isDigit
  cases h : digitValue c with
  | none => simp
  | some d => simp

theorem isDigit_ne {base : ℕ} {c d : Char} (hd : isDigit base d = true) (hc : digitValue c = none) :
    d ≠ c := by
  rintro rfl
  obtain ⟨n, -, hn⟩ := isDigit_iff.mp hd
  rw [hc] at hn; cases hn

theorem digitValue_digitChar (upper : Bool) {d : ℕ} (h : d < 16) :
    digitValue (digitChar upper d) = some d := by
  interval_cases d <;> cases upper <;> decide

theorem isUpper_iff {c : Char} : c.isUpper = true ↔ 65 ≤ c.toNat ∧ c.toNat ≤ 90 := by
  show decide (c.val ≥ 'A'.val ∧ c.val ≤ 'Z'.val) = true ↔ _
  rw [decide_eq_true_iff, ge_iff_le, UInt32.le_iff_toNat_le, UInt32.le_iff_toNat_le]
  rfl

theorem digitChar_of_isDigit {c : Char} {d : ℕ} (hv : digitValue c = some d) (hd : d < 16)
    (hc : c.isUpper = false) : Nat.digitChar d = c := by
  unfold digitValue at hv
  split_ifs at hv with h1 h2 h3
  · rw [Option.some.injEq] at hv
    subst hv
    have h48 : 48 ≤ c.toNat := h1.1
    have h57 : c.toNat ≤ 57 := h1.2
    apply Char.toNat_inj.mp
    rw [Nat.toNat_digitChar_of_lt_ten (by omega)]
    omega
  · rw [Option.some.injEq] at hv
    have h97 : 97 ≤ c.toNat := h2.1
    have hn : c.toNat = d + 87 := by omega
    apply Char.toNat_inj.mp
    rw [hn]
    have h10 : 10 ≤ d := by omega
    clear hv hn h97 h2 h1
    interval_cases d <;> rfl
  · have hup : c.isUpper = true := isUpper_iff.mpr h3
    rw [hc] at hup; cases hup

/-! ### Values -/

theorem value_append (base : ℕ) (s t : List Char) :
    value base (s ++ t) = t.foldl (pushDigit base) (value base s) := by
  unfold value; rw [List.foldl_append]

theorem foldl_pushDigit (base : ℕ) : ∀ (s : List Char) (n : ℕ),
    s.foldl (pushDigit base) n = base ^ s.length * n + value base s
  | [], n => by simp [value]
  | c :: s, n => by
    rw [value, List.foldl_cons, List.foldl_cons, foldl_pushDigit base s, foldl_pushDigit base s]
    simp only [pushDigit, List.length_cons]
    ring

theorem value_cons (base : ℕ) (c : Char) (s : List Char) :
    value base (c :: s) = base ^ s.length * (digitValue c).getD 0 + value base s := by
  rw [value, List.foldl_cons, foldl_pushDigit]
  simp [pushDigit]

theorem value_concat (base : ℕ) (s : List Char) (c : Char) :
    value base (s ++ [c]) = base * value base s + (digitValue c).getD 0 := by
  rw [value_append]; rfl

theorem value_lt {base : ℕ} : ∀ {s : List Char}, (∀ c ∈ s, isDigit base c = true) →
    value base s < base ^ s.length
  | [], _ => by simp [value]
  | c :: s, h => by
    obtain ⟨d, hd, hc⟩ := isDigit_iff.mp (h c (by simp))
    have ih := value_lt fun c' hc' => h c' (List.mem_cons_of_mem _ hc')
    rw [value_cons, hc, List.length_cons, Option.getD_some, pow_succ]
    calc base ^ s.length * d + value base s < base ^ s.length * d + base ^ s.length := by omega
      _ = base ^ s.length * (d + 1) := by ring
      _ ≤ base ^ s.length * base := Nat.mul_le_mul_left _ hd

/-! ### Reading -/

/-- **What `from_chars` reads to the end.** -/
theorem fromChars_eq_ok_iff {base max v : ℕ} {s : List Char} :
    fromChars base max s = .ok (v, []) ↔
      s ≠ [] ∧ (∀ c ∈ s, isDigit base c = true) ∧ value base s = v ∧ v ≤ max := by
  unfold fromChars
  constructor
  · intro h
    split_ifs at h with h1 h2
    rw [Except.ok.injEq, Prod.mk.injEq, List.dropWhile_eq_nil_iff] at h
    obtain ⟨hv, hall⟩ := h
    rw [List.takeWhile_eq_self_iff.mpr hall] at h1 h2 hv
    exact ⟨h1, hall, hv, by omega⟩
  · rintro ⟨hs, hall, rfl, hmax⟩
    rw [List.takeWhile_eq_self_iff.mpr hall, List.dropWhile_eq_nil_iff.mpr hall, if_neg hs,
      if_neg (by omega)]

/-! ### Writing -/

section Writing
variable {base : ℕ} (hb : 1 < base) (hb' : base ≤ 16) (upper : Bool)

theorem toChars_of_lt {n : ℕ} (h : n < base) : toChars base upper n = [digitChar upper n] := by
  rw [toChars, Nat.toDigits_of_lt_base h]; rfl

theorem toChars_ne_nil (n : ℕ) : toChars base upper n ≠ [] := by simp [toChars]

include hb

theorem toChars_of_le {n : ℕ} (h : base ≤ n) :
    toChars base upper n = toChars base upper (n / base) ++ [digitChar upper (n % base)] := by
  rw [toChars, Nat.toDigits_of_base_le hb h, List.map_append]; rfl

theorem length_toChars_le {n k : ℕ} (hk : 0 < k) (h : n < base ^ k) :
    (toChars base upper n).length ≤ k := by
  rw [toChars, List.length_map]
  exact (Nat.length_toDigits_le_iff hb hk).mpr h

include hb'

theorem isDigit_digitChar {d : ℕ} (h : d < base) : isDigit base (digitChar upper d) = true :=
  isDigit_iff.mpr ⟨d, h, digitValue_digitChar upper (by omega)⟩

theorem isDigit_toChars (n : ℕ) : ∀ c ∈ toChars base upper n, isDigit base c = true := by
  induction n using Nat.strong_induction_on with
  | _ n ih =>
    rcases Nat.lt_or_ge n base with h | h
    · rw [toChars_of_lt upper h]
      simpa using isDigit_digitChar hb hb' upper h
    · intro c hc
      rw [toChars_of_le hb upper h, List.mem_append, List.mem_singleton] at hc
      rcases hc with hc | rfl
      · exact ih (n / base) (Nat.div_lt_self (by omega) hb) c hc
      · exact isDigit_digitChar hb hb' upper (Nat.mod_lt _ (by omega))

theorem value_toChars (n : ℕ) : value base (toChars base upper n) = n := by
  induction n using Nat.strong_induction_on with
  | _ n ih =>
    rcases Nat.lt_or_ge n base with h | h
    · rw [toChars_of_lt upper h, value_cons, digitValue_digitChar upper (by omega)]
      simp [value]
    · have hmod : n % base < base := Nat.mod_lt _ (by omega)
      rw [toChars_of_le hb upper h, value_concat, ih (n / base) (Nat.div_lt_self (by omega) hb),
        digitValue_digitChar upper (by omega)]
      exact Nat.div_add_mod n base

theorem isDigit_toChars4 (n : ℕ) : ∀ c ∈ toChars4 base upper n, isDigit base c = true := by
  intro c hc
  rw [toChars4, List.leftpad, List.mem_append] at hc
  rcases hc with hc | hc
  · rw [List.eq_of_mem_replicate hc]
    exact isDigit_iff.mpr ⟨0, by omega, by decide⟩
  · exact isDigit_toChars hb hb' upper n c hc

omit hb hb' in
theorem value_replicate_zero (s : List Char) : ∀ k : ℕ,
    value base (List.replicate k '0' ++ s) = value base s
  | 0 => rfl
  | k + 1 => by
    have h0 : digitValue '0' = some 0 := by decide
    rw [List.replicate_succ, List.cons_append, value_cons, value_replicate_zero s k, h0]
    simp

theorem value_toChars4 (n : ℕ) : value base (toChars4 base upper n) = n := by
  rw [toChars4, List.leftpad, value_replicate_zero, value_toChars hb hb']

omit hb' in
theorem length_toChars4 {n : ℕ} (h : n < base ^ 4) : (toChars4 base upper n).length = 4 := by
  have := length_toChars_le hb upper (by omega) h
  rw [toChars4, List.length_leftpad]
  omega

end Writing

/-! ### Numerals without leading zeros -/

/-- No superfluous leading zero. -/
def NoLeadingZero (s : List Char) : Prop := 1 < s.length → s.head? ≠ some '0'

instance (s : List Char) : Decidable (NoLeadingZero s) := by unfold NoLeadingZero; infer_instance

/-- **A numeral** in lower case without leading zeros. -/
structure Numeral (base : ℕ) (s : List Char) : Prop where
  ne_nil : s ≠ []
  digits : ∀ c ∈ s, isDigit base c = true
  lower : ∀ c ∈ s, c.isUpper = false
  noLeadingZero : NoLeadingZero s

section Numerals
variable {base : ℕ} (hb : 1 < base) (hb' : base ≤ 16)
include hb hb'

omit hb' in
theorem value_pos {c : Char} {s : List Char} (h : isDigit base c = true) (hc : c.isUpper = false)
    (h0 : c ≠ '0') : 0 < value base (c :: s) := by
  obtain ⟨d, hd, hv⟩ := isDigit_iff.mp h
  have hd0 : d ≠ 0 := by
    rintro rfl
    exact h0 (digitChar_of_isDigit hv (by omega) hc).symm
  rw [value_cons, hv, Option.getD_some]
  have : 0 < base ^ s.length * d := Nat.mul_pos (by positivity) (by omega)
  omega

/-- **A numeral is the text of its value.** -/
theorem Numeral.toChars_value {s : List Char} (h : Numeral base s) :
    toChars base false (value base s) = s := by
  induction s using List.reverseRecOn with
  | nil => exact absurd rfl h.ne_nil
  | append_singleton t c ih =>
    obtain ⟨d, hd, hc⟩ := isDigit_iff.mp (h.digits c (by simp))
    have hlast : [digitChar false d] = [c] := by
      rw [← digitChar_of_isDigit hc (by omega) (h.lower c (by simp))]; rfl
    rw [value_concat, hc, Option.getD_some]
    rcases t with _ | ⟨a, t⟩
    · rw [show base * value base [] + d = d by simp [value], toChars_of_lt false hd, hlast]
      rfl
    · have ha : a ≠ '0' := by
        have := h.noLeadingZero (by simp)
        simpa using this
      have ht : Numeral base (a :: t) :=
        ⟨by simp, fun c' hc' => h.digits c' (List.mem_append_left _ hc'),
          fun c' hc' => h.lower c' (List.mem_append_left _ hc'), fun _ => by simpa using ha⟩
      have hpos : 0 < value base (a :: t) :=
        value_pos hb (ht.digits a (by simp)) (ht.lower a (by simp)) ha
      have hle : base ≤ base * value base (a :: t) + d :=
        (Nat.le_mul_of_pos_right base hpos).trans (Nat.le_add_right _ _)
      have hdiv : (base * value base (a :: t) + d) / base = value base (a :: t) := by
        rw [Nat.mul_add_div (by omega), Nat.div_eq_of_lt hd, Nat.add_zero]
      have hmod : (base * value base (a :: t) + d) % base = d := by
        rw [Nat.mul_add_mod, Nat.mod_eq_of_lt hd]
      rw [toChars_of_le hb false hle, hdiv, hmod, hlast, ih ht]

theorem noLeadingZero_toChars (upper : Bool) (n : ℕ) : NoLeadingZero (toChars base upper n) := by
  induction n using Nat.strong_induction_on with
  | _ n ih =>
    rcases Nat.lt_or_ge n base with h | h
    · rw [toChars_of_lt upper h]
      intro hl; simp at hl
    · have hpos : 0 < n / base := Nat.div_pos h (by omega)
      rw [toChars_of_le hb upper h]
      intro _
      rcases Nat.lt_or_ge (n / base) base with h' | h'
      · rw [toChars_of_lt upper h', List.singleton_append, List.head?_cons]
        intro he
        have hv : digitValue (digitChar upper (n / base)) = some (n / base) :=
          digitValue_digitChar upper (by omega)
        rw [Option.some.inj he, show digitValue '0' = some 0 by decide] at hv
        have := Option.some.inj hv
        omega
      · have hlen : 1 < (toChars base upper (n / base)).length := by
          rw [toChars_of_le hb upper h', List.length_append, List.length_singleton]
          have hne : toChars base upper (n / base / base) ≠ [] := toChars_ne_nil upper _
          have := List.length_pos_iff.mpr hne
          omega
        rw [List.head?_append, Option.or_of_isSome (by simp [toChars_ne_nil])]
        exact ih (n / base) (Nat.div_lt_self (by omega) hb) hlen

theorem isUpper_toChars (n : ℕ) : ∀ c ∈ toChars base false n, c.isUpper = false := by
  have hdigit : ∀ d < base, (digitChar false d).isUpper = false := by
    intro d hd
    have hd16 : d < 16 := by omega
    clear hd hb hb'
    interval_cases d <;> decide
  induction n using Nat.strong_induction_on with
  | _ n ih =>
    rcases Nat.lt_or_ge n base with h | h
    · rw [toChars_of_lt false h]
      simpa using hdigit n h
    · intro c hc
      rw [toChars_of_le hb false h, List.mem_append, List.mem_singleton] at hc
      rcases hc with hc | rfl
      · exact ih (n / base) (Nat.div_lt_self (by omega) hb) c hc
      · exact hdigit _ (Nat.mod_lt _ (by omega))

theorem numeral_iff {s : List Char} {v : ℕ} :
    Numeral base s ∧ value base s = v ↔ s = toChars base false v := by
  constructor
  · rintro ⟨hs, rfl⟩
    exact (hs.toChars_value hb hb').symm
  · rintro rfl
    exact ⟨⟨toChars_ne_nil false v, isDigit_toChars hb hb' false v, isUpper_toChars hb hb' v,
      noLeadingZero_toChars hb hb' false v⟩, value_toChars hb hb' false v⟩

end Numerals

theorem isUpper_of_isDigit {c : Char} (hc : isDigit 10 c = true) : c.isUpper = false := by
  obtain ⟨d, hd, hv⟩ := isDigit_iff.mp hc
  by_contra hup
  rw [Bool.not_eq_false] at hup
  have h65 := isUpper_iff.mp hup
  unfold digitValue at hv
  split_ifs at hv with h1 h2 h3
  · have h57 : c.toNat ≤ 57 := h1.2
    omega
  · have h97 : 97 ≤ c.toNat := h2.1
    omega
  · rw [Option.some.injEq] at hv
    omega

theorem decimal_iff {s : List Char} {v : ℕ} :
    (s ≠ [] ∧ (∀ c ∈ s, isDigit 10 c = true) ∧ NoLeadingZero s ∧ value 10 s = v) ↔
      s = toChars 10 false v := by
  rw [← numeral_iff (by omega) (by omega)]
  constructor
  · rintro ⟨hs, hall, h0, hv⟩
    exact ⟨⟨hs, hall, fun c hc => isUpper_of_isDigit (hall c hc), h0⟩, hv⟩
  · rintro ⟨h, hv⟩
    exact ⟨h.ne_nil, h.digits, h.noLeadingZero, hv⟩

/-- **Reading a decimal numeral** to its end, where a leading zero is refused. -/
theorem fromChars_decimal_iff {max v : ℕ} {s : List Char} :
    (¬ (s.length > 1 ∧ s.head? = some '0') ∧ fromChars 10 max s = .ok (v, [])) ↔
      s = toChars 10 false v ∧ v ≤ max := by
  rw [← decimal_iff, fromChars_eq_ok_iff]
  constructor
  · rintro ⟨h0, hne, hall, hv, hmax⟩
    exact ⟨⟨hne, hall, fun hl he => h0 ⟨hl, he⟩, hv⟩, hmax⟩
  · rintro ⟨⟨hne, hall, h0, hv⟩, hmax⟩
    exact ⟨fun h => h0 h.1 h.2, hne, hall, hv, hmax⟩

theorem value_eq_zero_iff : ∀ {s : List Char}, (∀ c ∈ s, isDigit 10 c = true) →
    (value 10 s = 0 ↔ s = List.replicate s.length '0')
  | [], _ => ⟨fun _ => rfl, fun _ => rfl⟩
  | c :: s, h => by
    have hc := h c List.mem_cons_self
    have hs : ∀ c' ∈ s, isDigit 10 c' = true := fun c' hc' => h c' (List.mem_cons_of_mem c hc')
    rw [List.length_cons, List.replicate_succ, List.cons.injEq, ← value_eq_zero_iff hs]
    constructor
    · intro hv
      have h0 : c = '0' := by
        by_contra h0
        have := value_pos (s := s) (by omega) hc (isUpper_of_isDigit hc) h0
        omega
      rw [value_cons] at hv
      exact ⟨h0, by omega⟩
    · rintro ⟨rfl, hv⟩
      have h0 : digitValue '0' = some 0 := by decide
      rw [value_cons, h0, Option.getD_some, hv, Nat.mul_zero]

/-! ### Signed types -/

/-- `std::from_chars` on `int`: a minus sign may stand in front of the digits. -/
def fromCharsInt32 (s : List Char) : Except Errc (Int32 × List Char) :=
  match s with
  | '-' :: t =>
    match fromChars 10 2147483648 t with
    | .error ec => .error ec
    | .ok (n, ptr) => .ok (Int32.ofInt (-n), ptr)
  | _ =>
    match fromChars 10 2147483647 s with
    | .error ec => .error ec
    | .ok (n, ptr) => .ok (Int32.ofInt n, ptr)

/-- The decimal digits of a number of type `int`. -/
structure Digits (s : List Char) (n : Int32) : Prop where
  ne_nil : s ≠ []
  digits : ∀ c ∈ s, isDigit 10 c = true
  value_eq : (value 10 s : ℤ) = n.toInt

/-- A zero with a minus sign. -/
def MinusZero (s : List Char) : Prop := ∃ k, s = '-' :: List.replicate (k + 1) '0'

theorem map_fromChars_eq_ok_iff {max : ℕ} {f : ℕ → ℤ} {s : List Char} {n : Int32}
    (hf : ∀ v ≤ max, -2147483648 ≤ f v ∧ f v < 2147483648) :
    (fromChars 10 max s).map (fun p => (Int32.ofInt (f p.1), p.2)) = .ok (n, []) ↔
      s ≠ [] ∧ (∀ c ∈ s, isDigit 10 c = true) ∧ value 10 s ≤ max ∧ n.toInt = f (value 10 s) := by
  constructor
  · intro h
    rcases hread : fromChars 10 max s with ec | ⟨v, ptr⟩
    · rw [hread] at h
      cases h
    · rw [hread] at h
      obtain ⟨rfl, rfl⟩ := Prod.mk.inj (Except.ok.inj h)
      obtain ⟨hne, hall, rfl, hmax⟩ := fromChars_eq_ok_iff.mp hread
      obtain ⟨hlower, hupper⟩ := hf _ hmax
      exact ⟨hne, hall, hmax, Int32.toInt_ofInt_of_le hlower hupper⟩
  · rintro ⟨hne, hall, hmax, hn⟩
    rw [fromChars_eq_ok_iff.mpr ⟨hne, hall, rfl, hmax⟩]
    simp only [Except.map]
    rw [← hn, Int32.ofInt_toInt]

theorem fromCharsInt32_plain_iff {s : List Char} {n : Int32} (hs : s.head? ≠ some '-') :
    fromCharsInt32 s = .ok (n, []) ↔ Digits s n := by
  have hmap : fromCharsInt32 s =
      (fromChars 10 2147483647 s).map fun p => (Int32.ofInt p.1, p.2) := by
    unfold fromCharsInt32
    split
    · exact absurd rfl hs
    · rcases fromChars 10 2147483647 s with ec | ⟨v, ptr⟩ <;> rfl
  rw [hmap, map_fromChars_eq_ok_iff (f := fun v => v) fun v hv => ⟨by omega, by omega⟩]
  constructor
  · rintro ⟨hne, hall, -, hn⟩
    exact ⟨hne, hall, hn.symm⟩
  · rintro ⟨hne, hall, hn⟩
    have hlt := n.toInt_lt
    exact ⟨hne, hall, by omega, hn.symm⟩

theorem fromCharsInt32_minus_iff {t : List Char} {n : Int32} :
    fromCharsInt32 ('-' :: t) = .ok (n, []) ↔
      t ≠ [] ∧ (∀ c ∈ t, isDigit 10 c = true) ∧ n.toInt = -(value 10 t : ℤ) := by
  have hmap : fromCharsInt32 ('-' :: t) =
      (fromChars 10 2147483648 t).map fun p => (Int32.ofInt (-p.1), p.2) := by
    unfold fromCharsInt32
    simp only
    rcases fromChars 10 2147483648 t with ec | ⟨v, ptr⟩ <;> rfl
  rw [hmap, map_fromChars_eq_ok_iff (f := fun v => -v) fun v hv => ⟨by omega, by omega⟩]
  constructor
  · rintro ⟨hne, hall, -, hn⟩
    exact ⟨hne, hall, hn⟩
  · rintro ⟨hne, hall, hn⟩
    have hle := n.le_toInt
    exact ⟨hne, hall, by omega, hn⟩

/-- **What is read to the end** and is not negative: digits, or a zero with a minus sign. -/
theorem fromCharsInt32_iff {s : List Char} {n : Int32} :
    (fromCharsInt32 s = .ok (n, []) ∧ 0 ≤ n.toInt) ↔ Digits s n ∨ (MinusZero s ∧ n = 0) := by
  constructor
  · rintro ⟨h, hn⟩
    by_cases hs : s.head? = some '-'
    · -- behind a minus sign there is nothing but zeros
      obtain ⟨t, rfl⟩ := List.head?_eq_some_iff.mp hs
      obtain ⟨hne, hall, hv⟩ := fromCharsInt32_minus_iff.mp h
      have ht := (value_eq_zero_iff hall).mp (by omega)
      have hlen := List.length_pos_iff.mpr hne
      refine Or.inr ⟨⟨t.length - 1, ?_⟩, ?_⟩
      · rw [Nat.sub_add_cancel hlen, ← ht]
      · rw [← Int32.toInt_inj, Int32.toInt_zero]
        omega
    · exact Or.inl ((fromCharsInt32_plain_iff hs).mp h)
  · rintro (h | ⟨⟨k, rfl⟩, rfl⟩)
    · have hs : s.head? ≠ some '-' := by
        intro hs
        obtain ⟨t, rfl⟩ := List.head?_eq_some_iff.mp hs
        exact absurd (h.digits '-' List.mem_cons_self) (by decide)
      have hv := h.value_eq
      exact ⟨(fromCharsInt32_plain_iff hs).mpr h, by omega⟩
    · have hall : ∀ c ∈ List.replicate (k + 1) '0', isDigit 10 c = true := by
        intro c hc
        rw [List.eq_of_mem_replicate hc]
        decide
      have hv : value 10 (List.replicate (k + 1) '0') = 0 := by
        rw [value_eq_zero_iff hall, List.length_replicate]
      exact ⟨fromCharsInt32_minus_iff.mpr ⟨by simp, hall, by rw [hv]; rfl⟩, le_rfl⟩

example : fromChars 16 65535 "fFg".toList = .ok (255, ['g']) := by decide

example : toChars4 16 true 171 = "00AB".toList := by decide

end Iouxx.Cpp.CharConv
