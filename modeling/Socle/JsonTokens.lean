import Mathlib.Data.Nat.Digits.Lemmas
import Socle.PythonJson

/-!
The numbers and the strings that `json.dumps` writes, as `json.loads` reads them:
the same, but for surrogates that stand side by side in a string.
-/

namespace Socle.JsonTokens

open Socle.PythonText
open Socle.PythonJson

variable {F : Type} {floats : Floats F}

/-- What may follow a value in the text of `dumps`. -/
def Ends (rest : Str) : Prop := ∀ c ∈ rest.head?, c = 44 ∨ c = 93 ∨ c = 125

/-- No character of a number. -/
def NotNumeric (rest : Str) : Prop :=
  ∀ c ∈ rest.head?, isDigit c = false ∧ c ≠ 46 ∧ c ≠ 101 ∧ c ≠ 69

theorem Ends.notNumeric {rest : Str} (h : Ends rest) : NotNumeric rest := by
  intro c hc
  rcases h c hc with rfl | rfl | rfl <;> decide

theorem span_digits {digits rest : Str} (hdigits : ∀ d ∈ digits, isDigit d = true)
    (hrest : ∀ c ∈ rest.head?, isDigit c = false) :
    (digits ++ rest).takeWhile isDigit = digits ∧ (digits ++ rest).dropWhile isDigit = rest := by
  rw [List.takeWhile_append_of_pos hdigits, List.dropWhile_append_of_pos hdigits]
  cases rest with
  | nil => simp
  | cons c rest => simp [hrest c rfl]

theorem scanOne_none {allowed : CodePoint → Bool} {s : Str}
    (hs : ∀ c ∈ s.head?, allowed c = false) : scanOne allowed s = ([], s) := by
  cases s with
  | nil => rfl
  | cons c s => simp [scanOne, hs c rfl]

theorem scanWhole_append {whole rest : Str} (hwhole : IsWhole whole)
    (hrest : ∀ c ∈ rest.head?, isDigit c = false) :
    scanWhole (whole ++ rest) = some (whole, rest) := by
  rcases hwhole with rfl | ⟨c, digits, rfl, hc, hdigits⟩
  · simp [scanWhole]
  · obtain ⟨hdigit, htail⟩ := List.forall_mem_cons.mp hdigits
    obtain ⟨htake, hdrop⟩ := span_digits htail hrest
    simp [scanWhole, hc, hdigit, htake, hdrop]

theorem scanFraction_none {rest : Str} (hrest : ∀ c ∈ rest.head?, c ≠ 46) :
    scanFraction rest = ([], rest) := by
  unfold scanFraction
  split
  · rename_i c d rest
    simp [hrest c rfl]
  · rfl

theorem scanFraction_append {fraction rest : Str} (hfraction : fraction = [] ∨ IsFraction fraction)
    (hrest : ∀ c ∈ rest.head?, isDigit c = false ∧ c ≠ 46) :
    scanFraction (fraction ++ rest) = (fraction, rest) := by
  rcases hfraction with rfl | ⟨d, digits, rfl, hdigits⟩
  · exact scanFraction_none fun c hc => (hrest c hc).2
  · obtain ⟨hd, htail⟩ := List.forall_mem_cons.mp hdigits
    obtain ⟨htake, hdrop⟩ := span_digits htail fun c hc => (hrest c hc).1
    simp [scanFraction, hd, htake, hdrop]

theorem scanExponent_none {rest : Str} (hrest : ∀ c ∈ rest.head?, c ≠ 101 ∧ c ≠ 69) :
    scanExponent rest = ([], rest) := by
  have hmark : scanOne (fun c => c == 101 || c == 69) rest = ([], rest) := by
    refine scanOne_none fun c hc => ?_
    simp [hrest c hc]
  simp [scanExponent, hmark]

theorem scanExponent_append {exponent rest : Str} (hexponent : exponent = [] ∨ IsExponent exponent)
    (hrest : NotNumeric rest) : scanExponent (exponent ++ rest) = (exponent, rest) := by
  rcases hexponent with rfl | ⟨sign, d, digits, rfl, hsign, hdigits⟩
  · exact scanExponent_none fun c hc => (hrest c hc).2.2
  obtain ⟨htake, hdrop⟩ := span_digits hdigits fun c hc => (hrest c hc).1
  have hd := hdigits d List.mem_cons_self
  have hnosign : d ≠ 43 ∧ d ≠ 45 := by
    constructor
    · rintro rfl
      cases hd
    · rintro rfl
      cases hd
  have hscan : scanOne (fun c => c == 43 || c == 45) (sign ++ (d :: digits ++ rest)) =
      (sign, d :: digits ++ rest) := by
    rcases hsign with rfl | rfl | rfl <;> simp [scanOne, hnosign]
  have hmark : scanOne (fun c => c == 101 || c == 69) (101 :: (sign ++ d :: digits) ++ rest) =
      ([101], sign ++ (d :: digits ++ rest)) := by
    simp [scanOne]
  simp only [scanExponent, hmark, hscan, htake, hdrop]
  simp

theorem isWhole_cons {whole : Str} (h : IsWhole whole) :
    ∃ c rest, whole = c :: rest ∧ isDigit c = true := by
  rcases h with rfl | ⟨c, rest, rfl, -, hdigits⟩
  · exact ⟨48, [], rfl, rfl⟩
  · exact ⟨c, rest, rfl, hdigits c List.mem_cons_self⟩

theorem head_fraction {fraction rest : Str} (hfraction : fraction = [] ∨ IsFraction fraction)
    (hrest : ∀ c ∈ rest.head?, isDigit c = false) :
    ∀ c ∈ (fraction ++ rest).head?, isDigit c = false := by
  rcases hfraction with rfl | ⟨d, digits, rfl, -⟩
  · exact hrest
  · rintro c ⟨⟩
    rfl

theorem head_exponent {exponent rest : Str} (hexponent : exponent = [] ∨ IsExponent exponent)
    (hrest : NotNumeric rest) :
    ∀ c ∈ (exponent ++ rest).head?, isDigit c = false ∧ c ≠ 46 := by
  rcases hexponent with rfl | ⟨sign, d, digits, rfl, -⟩
  · exact fun c hc => ⟨(hrest c hc).1, (hrest c hc).2.1⟩
  · rintro c ⟨⟩
    decide

theorem scanNumber_literal (l : Literal) {rest : Str} (hrest : NotNumeric rest) :
    scanNumber floats (l.text ++ rest) =
      if l.fraction = [] ∧ l.exponent = [] then
        if l.whole.length ≤ maxStrDigits then
          .ok (.int (if l.sign = [] then digitsValue l.whole else -digitsValue l.whole), rest)
        else .error .valueError
      else .ok (.float (floats.ofText l.text), rest) := by
  have hexponent := head_exponent l.isExponent hrest
  have hfraction := head_fraction l.isFraction fun c hc => (hexponent c hc).1
  have hsign : scanOne (fun c => c == 45) (l.sign ++ (l.whole ++ (l.fraction ++ (l.exponent ++ rest))))
      = (l.sign, l.whole ++ (l.fraction ++ (l.exponent ++ rest))) := by
    rcases l.isSign with hsign | hsign
    · rw [hsign]
      obtain ⟨d, digits, hwhole, hd⟩ := isWhole_cons l.isWhole
      refine scanOne_none fun c hc => ?_
      rw [hwhole] at hc
      cases hc
      exact beq_eq_false_iff_ne.mpr fun h => by rw [h] at hd; cases hd
    · rw [hsign]
      rfl
  simp only [scanNumber, Literal.text, List.append_assoc, hsign,
    scanWhole_append l.isWhole hfraction, scanFraction_append l.isFraction hexponent,
    scanExponent_append l.isExponent hrest]

theorem mem_decimal {n : Nat} {c : CodePoint} (hc : c ∈ decimal n) : isDigit c = true := by
  unfold decimal at hc
  split at hc
  · cases List.mem_singleton.mp hc
    rfl
  · obtain ⟨d, hd, rfl⟩ := List.mem_map.mp (List.mem_reverse.mp hc)
    have hlt : d < 10 := Nat.digits_lt_base (by decide) hd
    simp only [isDigit, Fin.val_ofNat, Bool.and_eq_true, decide_eq_true_eq]
    omega

theorem digitsValue_reverse (digits : List Nat) (hdigits : ∀ d ∈ digits, d < 10) :
    digitsValue ((digits.map fun d => Fin.ofNat 0x110000 (48 + d)).reverse) =
      Nat.ofDigits 10 digits := by
  induction digits with
  | nil => rfl
  | cons d digits ih =>
      obtain ⟨hd, hrest⟩ := List.forall_mem_cons.mp hdigits
      have hvalue : (Fin.ofNat 0x110000 (48 + d)).val - 48 = d := by
        rw [Fin.val_ofNat]
        omega
      have hih := ih hrest
      simp only [digitsValue] at hih
      simp only [digitsValue, List.map_cons, List.reverse_cons, List.foldl_append, List.foldl_cons,
        List.foldl_nil, hih, hvalue, Nat.ofDigits_cons]
      omega

theorem digitsValue_decimal (n : Nat) : digitsValue (decimal n) = n := by
  unfold decimal
  split
  · rename_i hzero
    rw [hzero]
    rfl
  · rw [digitsValue_reverse _ fun d hd => Nat.digits_lt_base (by decide) hd, Nat.ofDigits_digits]

theorem isWhole_decimal (n : Nat) : IsWhole (decimal n) := by
  by_cases hzero : n = 0
  · exact .inl (if_pos hzero)
  · have hne : Nat.digits 10 n ≠ [] := Nat.digits_ne_nil_iff_ne_zero.mpr hzero
    have hlast := Nat.getLast_digit_ne_zero 10 hzero
    have hlt : (Nat.digits 10 n).getLast hne < 10 :=
      Nat.digits_lt_base (by decide) (List.getLast_mem hne)
    have hdecimal : decimal n = Fin.ofNat 0x110000 (48 + (Nat.digits 10 n).getLast hne) ::
        ((Nat.digits 10 n).dropLast.map fun d => Fin.ofNat 0x110000 (48 + d)).reverse := by
      rw [decimal, if_neg hzero]
      conv_lhs => rw [← List.dropLast_append_getLast hne]
      simp
    refine .inr ⟨_, _, hdecimal, ?_, fun d hd => mem_decimal hd⟩
    intro h
    have hval : (48 + (Nat.digits 10 n).getLast hne) % 0x110000 = 48 := congrArg Fin.val h
    omega

/-- The literal of an integer. -/
def intLiteral (i : Int) : Literal where
  sign := if i < 0 then [45] else []
  whole := decimal i.natAbs
  fraction := []
  exponent := []
  isSign := by
    split
    · exact .inr rfl
    · exact .inl rfl
  isWhole := isWhole_decimal i.natAbs
  isFraction := .inl rfl
  isExponent := .inl rfl

theorem intText_eq (i : Int) : intText i =
    if (decimal i.natAbs).length ≤ maxStrDigits then .ok (intLiteral i).text
    else .error .valueError := by
  unfold intText intLiteral Literal.text
  by_cases hneg : i < 0 <;> simp [hneg]

theorem scanNumber_int {i : Int} (hdigits : (decimal i.natAbs).length ≤ maxStrDigits) {rest : Str}
    (hrest : NotNumeric rest) :
    scanNumber floats ((intLiteral i).text ++ rest) = .ok (.int i, rest) := by
  have hvalue : (if (intLiteral i).sign = [] then (digitsValue (decimal i.natAbs) : Int)
      else -digitsValue (decimal i.natAbs)) = i := by
    rw [digitsValue_decimal]
    by_cases hneg : i < 0
    · simp only [intLiteral, hneg, if_true, reduceCtorEq, if_false]
      omega
    · simp only [intLiteral, hneg, if_false, if_true]
      omega
  have hwhole : (intLiteral i).whole = decimal i.natAbs := rfl
  rw [scanNumber_literal _ hrest, if_pos ⟨rfl, rfl⟩, hwhole, if_pos hdigits, hvalue]

theorem scanNumber_float (x : F) {rest : Str} (hrest : NotNumeric rest) :
    scanNumber floats ((floats.repr x).text ++ rest) = .ok (.float (.finite x), rest) := by
  have hfloat : ¬ ((floats.repr x).fraction = [] ∧ (floats.repr x).exponent = []) :=
    fun h => (floats.repr_float x).elim (fun hne => hne h.1) fun hne => hne h.2
  rw [scanNumber_literal _ hrest, if_neg hfloat, floats.ofText_repr]

/-- What `scanstring` reads where a character was written. -/
def itemsOf (c : CodePoint) : List Item :=
  if (shortEscapes.find? fun e => e.1 == c).isSome ∨ 32 ≤ c.val ∧ c.val ≤ 126 then [.plain c]
  else if c.val < 0x10000 then [.escaped c]
  else [.escaped (highOf c), .escaped (lowOf c)]

theorem hexValue_hexDigit {v : Nat} (hv : v < 16) : hexValue (hexDigit v) = some v := by
  revert v
  decide

theorem scanItems_unicodeEscape {c : CodePoint} (hc : c.val < 0x10000) (s : Str) :
    scanItems .plain (unicodeEscape c ++ s) =
      (scanItems .plain s).map fun out => (.escaped c :: out.1, out.2) := by
  have hvalue : Fin.ofNat 0x110000 ((((0 * 16 + c.val / 4096 % 16) * 16 + c.val / 256 % 16) * 16 +
      c.val / 16 % 16) * 16 + c.val % 16) = c := by
    apply Fin.ext
    rw [Fin.val_ofNat]
    omega
  simp only [unicodeEscape, List.cons_append, List.nil_append, scanItems,
    hexValue_hexDigit (Nat.mod_lt _ (by decide : 16 > 0)), hvalue]
  rfl

theorem scanItems_escape (c : CodePoint) (s : Str) :
    scanItems .plain (escape c ++ s) =
      (scanItems .plain s).map fun out => (itemsOf c ++ out.1, out.2) := by
  unfold escape itemsOf
  cases hfind : shortEscapes.find? fun e => e.1 == c with
  | some e =>
      have hc : e.1 = c := by simpa using List.find?_some hfind
      have he := List.mem_of_find?_eq_some hfind
      simp only [shortEscapes, List.mem_cons, List.not_mem_nil, or_false] at he
      subst hc
      rcases he with rfl | rfl | rfl | rfl | rfl | rfl | rfl <;> rfl
  | none =>
      have hnone (e : CodePoint × CodePoint) (he : e ∈ shortEscapes) : e.1 ≠ c := by
        simpa using List.find?_eq_none.mp hfind e he
      have hquote : c ≠ 34 := (hnone (34, 34) (by decide)).symm
      have hbackslash : c ≠ 92 := (hnone (92, 92) (by decide)).symm
      simp only [Option.isSome_none, Bool.false_eq_true, false_or]
      split
      · rename_i hprintable
        have hnot : ¬ c.val < 32 := Nat.not_lt.mpr hprintable.1
        simp [scanItems, hquote, hbackslash, hnot]
      split
      · rename_i hplane
        exact scanItems_unicodeEscape hplane s
      · rename_i hplane
        have hhigh := isHigh_iff.mp (isHigh_highOf (Nat.not_lt.mp hplane))
        have hlow := isLow_iff.mp (isLow_lowOf c)
        rw [List.append_assoc, scanItems_unicodeEscape (by omega),
          scanItems_unicodeEscape (by omega)]
        cases scanItems .plain s <;> rfl

theorem scanItems_flatMap_escape (s rest : Str) :
    scanItems .plain (s.flatMap escape ++ 34 :: rest) = .ok (s.flatMap itemsOf, rest) := by
  induction s with
  | nil => rfl
  | cons c s ih =>
      rw [List.flatMap_cons, List.flatMap_cons, List.append_assoc, scanItems_escape, ih]
      rfl

theorem joinItems_itemsOf_append {c : CodePoint} {items : List Item}
    (hnext : ∀ d, items.head? = some (.escaped d) → ¬ (isHigh c ∧ isLow d)) :
    joinItems (itemsOf c ++ items) = c :: joinItems items := by
  unfold itemsOf
  split
  · cases items with
    | nil => rfl
    | cons x items => simp [joinItems, Item.point]
  split
  · cases items with
    | nil => rfl
    | cons x items =>
        cases x with
        | plain d => rfl
        | escaped d =>
            have hpair : ¬ (isHigh c && isLow d) = true :=
              fun h => hnext d rfl ((Bool.and_eq_true _ _).mp h)
            simp [joinItems, hpair]
  · rename_i hplane
    have hge : 0x10000 ≤ c.val := Nat.not_lt.mp hplane
    simp [joinItems, isHigh_highOf hge, isLow_lowOf c, joinPair_halves hge]

theorem itemsOf_surrogate {c : CodePoint} (hc : isHigh c = true ∨ isLow c = true) :
    itemsOf c = [.escaped c] := by
  rw [isHigh_iff, isLow_iff] at hc
  have hshort : ¬ (shortEscapes.find? fun e => e.1 == c).isSome = true := by
    intro hsome
    obtain ⟨e, he, heq⟩ := List.find?_isSome.mp hsome
    have hlt : ∀ e ∈ shortEscapes, e.1.val < 128 := by simp [shortEscapes]
    have hval : e.1.val = c.val := congrArg Fin.val (beq_iff_eq.mp heq)
    have := hlt e he
    omega
  unfold itemsOf
  rw [if_neg, if_pos (by omega)]
  rintro (h | h)
  · exact hshort h
  · omega

theorem head?_itemsOf_append (c : CodePoint) (items : List Item) (d : CodePoint)
    (hd : (itemsOf c ++ items).head? = some (.escaped d)) (hlow : isLow d = true) :
    isLow c = true := by
  unfold itemsOf at hd
  split at hd
  · cases hd
  split at hd
  · cases hd
    exact hlow
  · rename_i hplane
    cases hd
    have hhigh := isHigh_iff.mp (isHigh_highOf (Nat.not_lt.mp hplane))
    have := isLow_iff.mp hlow
    omega

theorem joinItems_flatMap_itemsOf (s : Str) : joinItems (s.flatMap itemsOf) = joinPairs s := by
  induction s using joinPairs.induct with
  | case1 => rfl
  | case2 c =>
      rw [List.flatMap_cons, List.flatMap_nil, joinItems_itemsOf_append (by simp)]
      rfl
  | case3 c d rest hpair ih =>
      obtain ⟨hhigh, hlow⟩ := (Bool.and_eq_true _ _).mp hpair
      rw [List.flatMap_cons, List.flatMap_cons, itemsOf_surrogate (.inl hhigh),
        itemsOf_surrogate (.inr hlow), joinPairs, if_pos hpair, ← ih]
      exact if_pos hpair
  | case4 c d rest hpair ih =>
      rw [List.flatMap_cons, joinItems_itemsOf_append, ih, joinPairs, if_neg hpair]
      rintro e he ⟨hhigh, hlow⟩
      rw [List.flatMap_cons] at he
      exact hpair ((Bool.and_eq_true _ _).mpr ⟨hhigh, head?_itemsOf_append d _ e he hlow⟩)

theorem scanString_stringText (s rest : Str) :
    scanString (s.flatMap escape ++ 34 :: rest) = .ok (joinPairs s, rest) := by
  rw [scanString, scanItems_flatMap_escape, ← joinItems_flatMap_itemsOf]
  rfl

/-- The characters of the texts of `dumps`. -/
def Printable (s : Str) : Prop := ∀ c ∈ s, 32 ≤ c.val ∧ c.val ≤ 126

theorem Printable.isAscii {s : Str} (h : Printable s) : isAscii s = true := by
  refine List.all_eq_true.mpr fun c hc => decide_eq_true ?_
  have := h c hc
  omega

theorem Printable.append {s t : Str} (hs : Printable s) (ht : Printable t) :
    Printable (s ++ t) := by
  intro c hc
  rcases List.mem_append.mp hc with hc | hc
  · exact hs c hc
  · exact ht c hc

theorem Printable.cons {c : CodePoint} {s : Str} (hc : 32 ≤ c.val ∧ c.val ≤ 126)
    (hs : Printable s) : Printable (c :: s) := List.forall_mem_cons.mpr ⟨hc, hs⟩

theorem printable_nil : Printable [] := by
  intro c hc
  cases hc

theorem printable_commaJoin {texts : List Str} (h : ∀ t ∈ texts, Printable t) :
    Printable (commaJoin texts) := by
  induction texts with
  | nil => exact printable_nil
  | cons t texts ih =>
      obtain ⟨ht, htexts⟩ := List.forall_mem_cons.mp h
      cases texts with
      | nil => exact ht
      | cons t' texts => exact ht.append (.cons (by decide) (ih htexts))

theorem printable_brackets {texts : List Str} (h : ∀ t ∈ texts, Printable t) {opening closing : CodePoint}
    (hopening : 32 ≤ opening.val ∧ opening.val ≤ 126)
    (hclosing : 32 ≤ closing.val ∧ closing.val ≤ 126) :
    Printable (opening :: (commaJoin texts ++ [closing])) :=
  .cons hopening ((printable_commaJoin h).append (.cons hclosing printable_nil))

theorem printable_digits {digits : Str} (h : ∀ d ∈ digits, isDigit d = true) :
    Printable digits := by
  intro c hc
  have hdigit := h c hc
  simp only [isDigit, Bool.and_eq_true, decide_eq_true_eq] at hdigit
  omega

theorem printable_hexDigit {v : Nat} (hv : v < 16) :
    32 ≤ (hexDigit v).val ∧ (hexDigit v).val ≤ 126 := by
  revert v
  decide

theorem printable_unicodeEscape (c : CodePoint) : Printable (unicodeEscape c) := by
  have hhex (n : Nat) : 32 ≤ (hexDigit (n % 16)).val ∧ (hexDigit (n % 16)).val ≤ 126 :=
    printable_hexDigit (Nat.mod_lt n (by decide))
  exact .cons (by decide) (.cons (by decide) (.cons (hhex _) (.cons (hhex _) (.cons (hhex _)
    (.cons (hhex _) printable_nil)))))

theorem printable_escape (c : CodePoint) : Printable (escape c) := by
  unfold escape
  split
  · rename_i e he
    have hshort : ∀ e ∈ shortEscapes, 32 ≤ e.2.val ∧ e.2.val ≤ 126 := by simp [shortEscapes]
    exact .cons (by decide) (.cons (hshort e (List.mem_of_find?_eq_some he)) printable_nil)
  split
  · rename_i hc
    exact .cons hc printable_nil
  split
  · exact printable_unicodeEscape c
  · exact (printable_unicodeEscape _).append (printable_unicodeEscape _)

theorem printable_stringText (s : Str) : Printable (stringText s) := by
  refine .cons (by decide) (Printable.append ?_ (.cons (by decide) printable_nil))
  intro c hc
  obtain ⟨x, -, hx⟩ := List.mem_flatMap.mp hc
  exact printable_escape x c hx

theorem printable_literal (l : Literal) : Printable l.text := by
  have hsign : Printable l.sign := by
    rcases l.isSign with h | h
    · rw [h]
      exact printable_nil
    · rw [h]
      exact .cons (by decide) printable_nil
  have hwhole : Printable l.whole := by
    rcases l.isWhole with h | ⟨-, -, -, -, hdigits⟩
    · rw [h]
      exact .cons (by decide) printable_nil
    · exact printable_digits hdigits
  have hfraction : Printable l.fraction := by
    rcases l.isFraction with h | ⟨d, digits, h, hdigits⟩
    · rw [h]
      exact printable_nil
    · rw [h]
      exact .cons (by decide) (printable_digits hdigits)
  have hexponent : Printable l.exponent := by
    rcases l.isExponent with h | ⟨sign, d, digits, h, hexpSign, hdigits⟩
    · rw [h]
      exact printable_nil
    · rw [h]
      refine .cons (by decide) (Printable.append ?_ (printable_digits hdigits))
      rcases hexpSign with rfl | rfl | rfl
      · exact printable_nil
      · exact .cons (by decide) printable_nil
      · exact .cons (by decide) printable_nil
  exact hsign.append (hwhole.append (hfraction.append hexponent))

end Socle.JsonTokens
