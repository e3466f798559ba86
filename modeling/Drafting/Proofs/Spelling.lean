import Drafting.Json.Printer
import Drafting.Json.Reader
import Mathlib.Data.List.Basic

namespace Drafting.Json

open Decimal (Literal Exponent Mark)

theorem points?_plain {c : Char} (quote : c ≠ '"') (backslash : c ≠ '\\')
    (printed : ¬c.toNat < 0x20) (r : List Char) :
    points? (c :: r) = (points? r).map fun (ns, r) => (c.toNat :: ns, r) := by
  rw [points?.eq_5]
  · rw [if_neg printed]
    cases points? r <;> rfl
  · exact quote
  · exact fun _ _ _ _ _ same _ => backslash same
  · exact fun _ _ same _ => backslash same

theorem points?_escaped {e c : Char} (h : unescape? e = some c) (r : List Char) :
    points? ('\\' :: e :: r) = (points? r).map fun (ns, r) => (c.toNat :: ns, r) := by
  rw [points?.eq_4]
  · rw [h]
    cases points? r <;> rfl
  · rintro _ _ _ _ _ rfl
    cases h

theorem hexValue?_hexDigit (n : Nat) : hexValue? (hexDigit n) = some (n % 16) := by
  have all : ∀ m < 16, hexValue? (Nat.digitChar m) = some m := by decide
  exact all _ (Nat.mod_lt _ (by decide))

theorem points?_hex {n : Nat} (control : n < 0x20) (r : List Char) :
    points? ('\\' :: 'u' :: '0' :: '0' :: hexDigit (n / 16) :: hexDigit n :: r) =
      (points? r).map fun (ns, r) => (n :: ns, r) := by
  have value : hexValues? '0' '0' (hexDigit (n / 16)) (hexDigit n) = some n := by
    have zero : hexValue? '0' = some 0 := by decide
    rw [hexValues?, zero, hexValue?_hexDigit, hexValue?_hexDigit]
    refine congrArg some ?_
    omega
  rw [points?.eq_3, value]
  cases points? r <;> rfl

/-- Whatever stands for a character is read as that character: itself, a short escape or four
digits. -/
theorem points?_escape (c : Char) (r : List Char) :
    points? (escape c ++ r) = (points? r).map fun (ns, r) => (c.toNat :: ns, r) := by
  unfold escape
  split_ifs with h₁ h₂ h₃ h₄ h₅ h₆ h₇ h₈
  · subst h₁
    exact points?_escaped rfl r
  · subst h₂
    exact points?_escaped rfl r
  · subst h₃
    exact points?_escaped rfl r
  · subst h₄
    exact points?_escaped rfl r
  · subst h₅
    exact points?_escaped rfl r
  · subst h₆
    exact points?_escaped rfl r
  · subst h₇
    exact points?_escaped rfl r
  · exact points?_hex h₈ r
  · exact points?_plain h₁ h₂ h₈ r

/-- An escaped text is read up to the quote that ends it. -/
theorem points?_text (s rest : List Char) :
    points? (s.flatMap escape ++ '"' :: rest) = some (s.map Char.toNat, rest) := by
  induction s with
  | nil => rw [List.flatMap_nil, List.nil_append, points?.eq_2, List.map_nil]
  | cons c s ih => rw [List.flatMap_cons, List.append_assoc, points?_escape, ih, List.map_cons]; rfl

/-- No character is half of a surrogate pair. -/
theorem not_half (c : Char) : (isHigh c.toNat || isLow c.toNat) = false := by
  have valid : c.toNat < 0xD800 ∨ 0xDFFF < c.toNat ∧ c.toNat < 0x110000 := c.valid
  simp only [isHigh, isLow, Bool.or_eq_false_iff, Bool.and_eq_false_iff, decide_eq_false_iff_not]
  omega

theorem ofPoints?_text (s : List Char) : ofPoints? (s.map Char.toNat) = some s := by
  induction s with
  | nil => rfl
  | cons c s ih =>
    obtain ⟨high, low⟩ := Bool.or_eq_false_iff.mp (not_half c)
    cases s with
    | nil => simp [ofPoints?, high, low]
    | cons d s =>
      rw [List.map_cons, List.map_cons, ofPoints?, high, low, ← List.map_cons, ih]
      simp

/-- A string is read back, since no two of its characters are taken for one. -/
theorem string?_text (s : String) (rest : List Char) :
    string? (s.toList.flatMap escape ++ '"' :: rest) = some (some s, rest) := by
  rw [string?, points?_text, Option.map_some]
  simp only [ofPoints?_text, Option.map_some, String.ofList_toList]

/-- No digit, point or exponent comes next: a number that was read so far ends here. -/
def Stops (r : List Char) : Prop :=
  ∀ c ∈ r.head?, c.isDigit = false ∧ c ≠ '.' ∧ c ≠ 'e' ∧ c ≠ 'E'

/-- Digits are taken up to the first character that is none. -/
theorem span_digits {ds r : List Char} (digits : ∀ d ∈ ds, d.isDigit)
    (stop : ∀ c ∈ r.head?, c.isDigit = false) :
    (ds ++ r).takeWhile Char.isDigit = ds ∧ (ds ++ r).dropWhile Char.isDigit = r := by
  rw [List.takeWhile_append_of_pos digits, List.dropWhile_append_of_pos digits]
  cases r with
  | nil => simp
  | cons c r => simp [stop c rfl]

def fractionChars (ds : List Char) : List Char := if ds.isEmpty then [] else '.' :: ds

def exponentChars : Option Exponent → List Char
  | none => []
  | some e => e.chars

theorem chars_eq (l : Literal) : l.chars = (if l.negative then ['-'] else []) ++
    (l.whole ++ (fractionChars l.fraction ++ exponentChars l.exponent)) := by
  rw [Literal.chars, List.append_assoc, List.append_assoc]
  rfl

/-- The digits of a literal are digits, and stand where there must be some. -/
structure Spelt (l : Literal) : Prop where
  whole : l.whole = ['0'] ∨ l.whole ≠ [] ∧ l.whole.head? ≠ some '0' ∧ ∀ d ∈ l.whole, d.isDigit
  fraction : ∀ d ∈ l.fraction, d.isDigit
  exponent : ∀ e ∈ l.exponent, e.digits ≠ [] ∧ ∀ d ∈ e.digits, d.isDigit

instance (l : Literal) : Decidable (Spelt l) :=
  decidable_of_iff ((l.whole = ['0'] ∨
      l.whole ≠ [] ∧ l.whole.head? ≠ some '0' ∧ l.whole.all Char.isDigit) ∧
    l.fraction.all Char.isDigit ∧ ∀ e ∈ l.exponent, e.digits ≠ [] ∧ e.digits.all Char.isDigit) <| by
    simp only [List.all_eq_true]
    exact ⟨fun ⟨w, f, e⟩ => ⟨w, f, e⟩, fun ⟨w, f, e⟩ => ⟨w, f, e⟩⟩

/-- Before the point there is a single zero, or digits that do not start with one. -/
theorem whole?_spelt {ds r : List Char}
    (h : ds = ['0'] ∨ ds ≠ [] ∧ ds.head? ≠ some '0' ∧ ∀ d ∈ ds, d.isDigit)
    (stop : ∀ c ∈ r.head?, c.isDigit = false) : whole? (ds ++ r) = some (ds, r) := by
  rcases h with rfl | ⟨nonempty, first, digits⟩
  · rfl
  · obtain ⟨taken, left⟩ := span_digits digits stop
    cases ds with
    | nil => exact absurd rfl nonempty
    | cons d ds =>
      rw [List.cons_append, whole?.eq_2, ← List.cons_append, taken, left]
      · rfl
      · intro _ same
        exact first (congrArg some (List.cons.inj same).1)

theorem fraction?_spelt {ds r : List Char} (digits : ∀ d ∈ ds, d.isDigit)
    (stop : ∀ c ∈ r.head?, c.isDigit = false ∧ c ≠ '.') :
    fraction? (fractionChars ds ++ r) = some (ds, r) := by
  unfold fractionChars
  cases ds with
  | nil =>
    cases r with
    | nil => rfl
    | cons c r =>
      rw [List.isEmpty_nil, if_pos rfl, List.nil_append, fraction?.eq_2]
      rintro _ same
      exact (stop c rfl).2 (List.cons.inj same).1
  | cons d ds =>
    obtain ⟨taken, left⟩ := span_digits digits fun c hc => (stop c hc).1
    rw [List.isEmpty_cons, if_neg Bool.false_ne_true, List.cons_append, fraction?.eq_1, taken, left]
    rfl

theorem mark_spelt (m : Mark) {ds : List Char} (nonempty : ds ≠ [])
    (digits : ∀ d ∈ ds, d.isDigit) (r : List Char) :
    mark (m.chars ++ (ds ++ r)) = (m, ds ++ r) := by
  cases m with
  | plus => rfl
  | minus => rfl
  | bare =>
    obtain ⟨d, ds, rfl⟩ := List.exists_cons_of_ne_nil nonempty
    have digit := digits d (by simp)
    rw [Mark.chars, List.nil_append, List.cons_append, mark.eq_3]
    · intro _ same
      rw [(List.cons.inj same).1] at digit
      cases digit
    · intro _ same
      rw [(List.cons.inj same).1] at digit
      cases digit

theorem exponent?_spelt {e : Option Exponent} {r : List Char}
    (digits : ∀ x ∈ e, x.digits ≠ [] ∧ ∀ d ∈ x.digits, d.isDigit) (stop : Stops r) :
    exponent? (exponentChars e ++ r) = some (e, r) := by
  cases e with
  | none =>
    cases r with
    | nil => rfl
    | cons c r =>
      obtain ⟨-, -, small, large⟩ := stop c rfl
      simp [exponentChars, exponent?, small, large]
  | some e =>
    obtain ⟨m, ds⟩ := e
    obtain ⟨nonempty, digits⟩ := digits _ rfl
    obtain ⟨taken, left⟩ := span_digits digits fun c hc => (stop c hc).1
    have marked := mark_spelt m nonempty digits r
    simp only [exponentChars, Exponent.chars, List.cons_append, List.append_assoc, exponent?]
    simp [marked, taken, left, nonempty]

/-- After the digits before the point comes no digit, and after those behind it no point. -/
theorem stop_exponent (e : Option Exponent) {r : List Char} (stop : Stops r) :
    ∀ c ∈ (exponentChars e ++ r).head?, c.isDigit = false ∧ c ≠ '.' := by
  cases e with
  | none => exact fun c hc => ⟨(stop c hc).1, (stop c hc).2.1⟩
  | some e =>
    intro c hc
    cases hc
    decide

theorem stop_fraction (ds : List Char) {r : List Char} (stop : ∀ c ∈ r.head?, c.isDigit = false) :
    ∀ c ∈ (fractionChars ds ++ r).head?, c.isDigit = false := by
  cases ds with
  | nil => exact stop
  | cons d ds =>
    intro c hc
    cases hc
    decide

theorem unsigned?_spelt {l : Literal} (h : Spelt l) {r : List Char} (stop : Stops r) :
    unsigned? l.negative
      (l.whole ++ (fractionChars l.fraction ++ (exponentChars l.exponent ++ r))) =
        some (l, r) := by
  have behind := stop_exponent l.exponent stop
  have whole := whole?_spelt h.whole (stop_fraction l.fraction fun c hc => (behind c hc).1)
  simp only [unsigned?, whole, fraction?_spelt h.fraction behind, exponent?_spelt h.exponent stop,
    Option.bind_eq_bind, Option.bind_some]
  rfl

/-- A literal of digits is read back, whatever follows that is not part of it. -/
theorem number?_spelt {l : Literal} (h : Spelt l) {r : List Char} (stop : Stops r) :
    number? (l.chars ++ r) = some (l, r) := by
  have read := unsigned?_spelt h stop
  rw [chars_eq, List.append_assoc, List.append_assoc, List.append_assoc]
  cases sign : l.negative with
  | true =>
    rw [sign] at read
    exact read
  | false =>
    rw [sign] at read
    rw [if_neg Bool.false_ne_true, List.nil_append, number?.eq_2, read]
    intro _ same
    rcases h.whole with zero | ⟨nonempty, -, digits⟩
    · rw [zero] at same
      cases (List.cons.inj same).1
    · obtain ⟨d, ds, whole⟩ := List.exists_cons_of_ne_nil nonempty
      have digit := digits d (by simp [whole])
      rw [whole] at same
      rw [(List.cons.inj same).1] at digit
      cases digit

end Drafting.Json
