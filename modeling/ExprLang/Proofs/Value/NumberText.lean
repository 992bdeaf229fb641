import ExprLang.Proofs.Decimal.PlainNotation
import ExprLang.Proofs.Evaluation.Composition
import ExprLang.Proofs.Value.Comparison

/-!
# Numbers survive as strings

A number can be turned into a string and back without loss.  All that is needed of the two conversions is
that numerals are read with correct rounding (`Number.exists_ofChars?`) and that the text of a number is one
of the words or a numeral that rounds to it (`Number.isShortestText_plainText`).

Three ways lead through the text of a number: the conversions themselves, `+` with the empty string and the
sign `+` in expressions, and the comparison of a number with a string, which converts the string.
-/

namespace ExprLang

namespace Number

/-- What a text has to be like to be that of a number: one of the words, or a numeral without an exponent
for a decimal that rounds to the number and has the fewest digits of all that do. -/
def IsShortestText (s : String) : Number → Prop
  | .nan => s = "NaN"
  | .infinite negative => s.toList = signChars negative ++ ['i', 'n', 'f']
  | .finite negative m => ∃ (d : Decimal) (n : Numeral),
    s.toList = signChars negative ++ d.positional ∧
    s.toList = n.chars ∧ n.exponent = none ∧ n.negative = negative ∧ n.decimal.value = d.value ∧
    (finite negative m).IsRounding negative d.value ∧
    ∀ e : Decimal, (finite negative m).IsRounding negative e.value →
      (Decimal.digitsOf d.digits).length ≤ (Decimal.digitsOf e.digits).length

theorem isShortestText_plainText (x : Number) : x.IsShortestText x.plainText := by
  cases x with
  | nan => rfl
  | infinite negative => exact String.toList_ofList
  | finite negative m =>
    obtain ⟨n, htext, hnegative, hexponent, hvalue⟩ :=
      (plainDecimal m).exists_numeral_positional negative
    have hplain : (plainText (.finite negative m)).toList =
        signChars negative ++ (plainDecimal m).positional := by
      rw [plainText, String.toList_ofList, plainChars_finite]
    exact ⟨plainDecimal m, n, hplain, hplain.trans htext.symm, hexponent, hnegative, hvalue,
      isRounding_plainDecimal negative m, fun _ => length_digitsOf_plainDecimal_le⟩

end Number

namespace Value

theorem convert_number_string (x : Number) (p : Position) :
    convert ⟨.number x, p⟩ .string = .ok ⟨.string x.plainText, p⟩ := rfl

theorem number?_plainText (x : Number) (p : Position) :
    number? ⟨.string x.plainText, p⟩ = some x := Number.ofText?_plainText x

theorem convert_string_number {s : String} {x : Number} (h : Number.ofText? s = some x) (p : Position) :
    convert ⟨.string s, p⟩ .number = .ok ⟨.number x, p⟩ := by
  have hpayload : convertPayload? ⟨.string s, p⟩ .number = some (.number x) :=
    congrArg (Option.map Payload.number) h
  rw [convert, hpayload]

/-- A number and its text are compared as numbers. -/
theorem compare_number_plainText (x : Number) (p q : Position) :
    compare ⟨.number x, p⟩ ⟨.string x.plainText, q⟩ = .ok .eq := by
  have hself : x.order x = .eq := (Number.order_eq_eq_iff x x).2 rfl
  unfold compare
  simp only [number?_plainText]
  exact congrArg Except.ok hself

/-! ## In expressions -/

theorem add_empty (x : Number) (p q : Position) :
    add ⟨.number x, p⟩ ⟨.string "", q⟩ = .ok (string x.plainText) := by
  show Except.ok (string (x.plainText ++ "")) = _
  rw [String.append_empty]

theorem plus_plainText (x : Number) (p : Position) :
    plus ⟨.string x.plainText, p⟩ = .ok (number x) := by
  have hnumber : toNumber ⟨.string x.plainText, p⟩ = .ok x := by
    rw [toNumber, number?_plainText]
  rw [plus, hnumber]
  rfl

end Value

namespace Expr

/-- `+(e + "")`, with the positions of its nodes from the inside to the outside. -/
def throughText (e : Expr) (empty sum group sign : Position) : Expr :=
  .unary .plus (.unary .group (.binary e .add (.constant (.string "") empty) sum) group) sign

theorem evaluate_throughText {s : Settings} {env : Environment} {e : Expr} {x : Number} {p : Position}
    (he : e.evaluate s env = .ok ⟨.number x, p⟩) (empty sum group sign : Position) :
    (e.throughText empty sum group sign).evaluate s env = .ok ⟨.number x, sign⟩ := by
  have hsum : (Expr.binary e .add (.constant (.string "") empty) sum).evaluate s env =
      .ok ⟨.string x.plainText, sum⟩ := by
    rw [evaluate, he, evaluate_constant]
    exact congrArg (Outcome.located sum) (Value.add_empty x p empty)
  have hgroup : (Expr.unary .group (.binary e .add (.constant (.string "") empty) sum) group).evaluate s env =
      .ok ⟨.string x.plainText, group⟩ := by
    rw [evaluate, hsum]
    rfl
  rw [throughText, evaluate, hgroup]
  exact congrArg (Outcome.located sign) (Value.plus_plainText x group)

end Expr

namespace Value

/-- **Numbers are not changed by going through strings.**  A number converts to its text, the text
converts to the number, whichever it is, and the two compare as equal.  What evaluates to a number still
does with the empty string added to it and the sign `+` in front.  The text is the shortest that there is
without an exponent, and every numeral converts to the number that its value rounds to. -/
theorem number_through_text (x : Number) : ∃ s : String,
    (∀ p, convert ⟨.number x, p⟩ .string = .ok ⟨.string s, p⟩ ∧
      convert ⟨.string s, p⟩ .number = .ok ⟨.number x, p⟩) ∧
    (∀ p q, compare ⟨.number x, p⟩ ⟨.string s, q⟩ = .ok .eq ∧
      compare ⟨.string s, p⟩ ⟨.number x, q⟩ = .ok .eq) ∧
    (∀ (settings : Settings) (env : Environment) (e : Expr) (p empty sum group sign : Position),
      e.evaluate settings env = .ok ⟨.number x, p⟩ →
      (e.throughText empty sum group sign).evaluate settings env = .ok ⟨.number x, sign⟩) ∧
    x.IsShortestText s ∧
    ∀ (n : Numeral) (p : Position), ∃ y : Number,
      convert ⟨.string (String.ofList n.chars), p⟩ .number = .ok ⟨.number y, p⟩ ∧
      y.IsRounding n.negative n.decimal.value := by
  refine ⟨x.plainText, fun p => ⟨convert_number_string x p, ?_⟩, fun p q => ⟨?_, ?_⟩, ?_, ?_, ?_⟩
  · exact convert_string_number (Number.ofText?_plainText x) p
  · exact compare_number_plainText x p q
  · exact compare_swap (compare_number_plainText x q p)
  · intro settings env e p empty sum group sign he
    exact Expr.evaluate_throughText he empty sum group sign
  · exact Number.isShortestText_plainText x
  · intro n p
    obtain ⟨y, hread, hround⟩ := Number.exists_ofChars? n
    refine ⟨y, convert_string_number ?_ p, hround⟩
    rw [Number.ofText?, String.toList_ofList, hread]

/-- The negative zero stays negative. -/
theorem negativeZero_through_text :
    ((Expr.constant (.number (Number.signedZero true)) ⟨1, 3⟩).throughText ⟨1, 8⟩ ⟨1, 6⟩ ⟨1, 2⟩
      ⟨1, 1⟩).evaluate {} .empty = .ok ⟨.number (Number.signedZero true), ⟨1, 1⟩⟩ := by
  obtain ⟨s, -, -, hexpr, -⟩ := number_through_text (Number.signedZero true)
  exact hexpr {} .empty _ ⟨1, 3⟩ ⟨1, 8⟩ ⟨1, 6⟩ ⟨1, 2⟩ ⟨1, 1⟩ rfl

end Value
end ExprLang
