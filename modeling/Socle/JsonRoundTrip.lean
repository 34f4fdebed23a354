import Socle.JsonTokens

/-!
What `json.loads` makes of the text of `json.dumps`: the same value, with the pairs
of surrogates joined in its strings and keys.
-/

namespace Socle.JsonRoundTrip

open Socle.PythonText
open Socle.PythonJson
open Socle.JsonTokens

variable {F : Type} {floats : Floats F}

/-- At most so many levels of nesting. -/
def fits : Nat → Json F → Bool
  | 0, .list _ => false
  | 0, .dict _ => false
  | n + 1, .list items => items.all (fits n)
  | n + 1, .dict entries => entries.all fun entry => fits n entry.2
  | _, _ => true

mutual

/-- The value with the pairs of surrogates joined in its strings and keys. -/
def normalize : Json F → Json F
  | .str s => .str (joinPairs s)
  | .list items => .list (normalizeItems items)
  | .dict entries => .dict (normalizeEntries [] entries)
  | v => v

def normalizeItems : List (Json F) → List (Json F)
  | [] => []
  | v :: rest => normalize v :: normalizeItems rest

def normalizeEntries (read : List (Str × Json F)) : List (Str × Json F) → List (Str × Json F)
  | [] => read
  | (key, v) :: rest => normalizeEntries (setItem (joinPairs key) (normalize v) read) rest

end

/-- The text begins a value: no space, and no closing bracket. -/
def Starts (text : Str) : Prop := ∃ c rest, text = c :: rest ∧ 32 < c.val ∧ c ≠ 93 ∧ c ≠ 125

/-- The scanner reads this value from this text, when it has levels left for it. -/
structure Reads (floats : Floats F) (n : Nat) (v : Json F) (text : Str) : Prop where
  starts : Starts text
  printable : Printable text
  scan : ∀ rest, Ends rest → scanOnce floats n (text ++ rest) =
    if fits n v then .ok (normalize v, rest) else .error .recursionError

theorem skipSpace_cons {c : CodePoint} (hc : 32 < c.val) (s : Str) :
    skipSpace (c :: s) = c :: s := by
  have hnot : (c == 32 || c == 9 || c == 10 || c == 13) = false := by
    simp only [Bool.or_eq_false_iff, beq_eq_false_iff_ne]
    refine ⟨⟨⟨?_, ?_⟩, ?_⟩, ?_⟩ <;> rintro rfl <;> exact absurd hc (by decide)
  simp [skipSpace, hnot]

theorem Starts.skipSpace {text : Str} (h : Starts text) (rest : Str) :
    skipSpace (text ++ rest) = text ++ rest := by
  obtain ⟨c, s, rfl, hc, -⟩ := h
  exact skipSpace_cons hc _

theorem commaJoin_cons (text : Str) {texts : List Str} (hne : texts ≠ []) :
    commaJoin (text :: texts) = text ++ 44 :: commaJoin texts := by
  cases texts with
  | nil => exact absurd rfl hne
  | cons t texts => rfl

theorem starts_commaJoin {texts : List Str} (hne : texts ≠ []) (h : ∀ t ∈ texts, Starts t) :
    Starts (commaJoin texts) := by
  cases texts with
  | nil => exact absurd rfl hne
  | cons t texts =>
      obtain ⟨c, s, rfl, hc⟩ := h t List.mem_cons_self
      cases texts with
      | nil => exact ⟨c, s, rfl, hc⟩
      | cons t' texts => exact ⟨c, _, rfl, hc⟩

theorem length_le_commaJoin (texts : List Str) : texts.length ≤ (commaJoin texts).length + 1 := by
  induction texts with
  | nil => simp
  | cons t texts ih =>
      cases texts with
      | nil => simp
      | cons t' texts =>
          rw [commaJoin_cons t (by simp)]
          simp only [List.length_cons, List.length_append] at ih ⊢
          omega

theorem ends_comma (s : Str) : Ends (44 :: s) := by
  rintro c ⟨⟩
  exact .inl rfl

theorem ends_bracket (s : Str) : Ends (93 :: s) := by
  rintro c ⟨⟩
  exact .inr (.inl rfl)

theorem ends_brace (s : Str) : Ends (125 :: s) := by
  rintro c ⟨⟩
  exact .inr (.inr rfl)

section Turns

variable {scan : Str → Except Failure (Json F × Str)} {v : Json F} {e : Failure} {fuel : Nat}

theorem ok_bind {α β : Type} (a : α) (f : α → Except Failure β) :
    ((Except.ok a : Except Failure α) >>= f) = f a := rfl

theorem error_bind {α β : Type} (e : Failure) (f : α → Except Failure β) :
    ((Except.error e : Except Failure α) >>= f) = .error e := rfl

theorem next_skipSpace {c : CodePoint} (hc : 32 < c.val) (s : Str) :
    next (skipSpace (c :: s)) = .ok (c, s) := by
  rw [skipSpace_cons hc]
  rfl

theorem scanElements_error {s : Str} (hscan : scan s = .error e) :
    scanElements scan (fuel + 1) s = .error e := by
  rw [scanElements, hscan, error_bind]

theorem scanElements_comma {s rest : Str} (hscan : scan s = .ok (v, 44 :: rest)) :
    scanElements scan (fuel + 1) s =
      (scanElements scan fuel (skipSpace rest)).map fun out => (v :: out.1, out.2) := by
  rw [scanElements, hscan, ok_bind]
  dsimp only
  rw [next_skipSpace (by decide), ok_bind, if_pos rfl]
  cases scanElements scan fuel (skipSpace rest) <;> rfl

theorem scanElements_last {s rest : Str} (hscan : scan s = .ok (v, 93 :: rest)) :
    scanElements scan (fuel + 1) s = .ok ([v], rest) := by
  rw [scanElements, hscan, ok_bind]
  dsimp only
  rw [next_skipSpace (by decide), ok_bind]
  dsimp only
  rw [if_neg (by decide), if_pos rfl]
  rfl

variable {entries : List (Str × Json F)} {key : Str}

theorem scanMembers_value {s : Str} (hs : Starts s) :
    scanMembers scan (fuel + 1) entries (stringText key ++ 58 :: s) = (do
      let (value, s) ← scan s
      let (c, s) ← next (skipSpace s)
      if c = 44 then
        scanMembers scan fuel (setItem (joinPairs key) value entries) (skipSpace s)
      else if c = 125 then
        return (setItem (joinPairs key) value entries, s)
      else
        throw .valueError) := by
  have hspace := hs.skipSpace []
  rw [List.append_nil] at hspace
  have htext : stringText key ++ 58 :: s = 34 :: (key.flatMap escape ++ 34 :: (58 :: s)) := by
    simp [stringText]
  rw [htext, scanMembers, next, ok_bind]
  simp only [ne_eq, not_true, if_false, scanString_stringText, ok_bind]
  rw [next_skipSpace (by decide)]
  simp only [not_true, if_false, ok_bind, hspace]

theorem scanMembers_error {s : Str} (hs : Starts s) (hscan : scan s = .error e) :
    scanMembers scan (fuel + 1) entries (stringText key ++ 58 :: s) = .error e := by
  rw [scanMembers_value hs, hscan, error_bind]

theorem scanMembers_comma {s rest : Str} (hs : Starts s) (hscan : scan s = .ok (v, 44 :: rest)) :
    scanMembers scan (fuel + 1) entries (stringText key ++ 58 :: s) =
      scanMembers scan fuel (setItem (joinPairs key) v entries) (skipSpace rest) := by
  rw [scanMembers_value hs, hscan, ok_bind]
  dsimp only
  rw [next_skipSpace (by decide), ok_bind, if_pos rfl]

theorem scanMembers_last {s rest : Str} (hs : Starts s) (hscan : scan s = .ok (v, 125 :: rest)) :
    scanMembers scan (fuel + 1) entries (stringText key ++ 58 :: s) =
      .ok (setItem (joinPairs key) v entries, rest) := by
  rw [scanMembers_value hs, hscan, ok_bind]
  dsimp only
  rw [next_skipSpace (by decide), ok_bind]
  dsimp only
  rw [if_neg (by decide), if_pos rfl]
  rfl

end Turns

theorem starts_of_reads {n : Nat} {items : List (Json F)} {texts : List Str}
    (hreads : List.Forall₂ (Reads floats n) items texts) : ∀ t ∈ texts, Starts t := by
  induction hreads with
  | nil => simp
  | cons hread _ ih => exact List.forall_mem_cons.mpr ⟨hread.starts, ih⟩

theorem printable_of_reads {n : Nat} {items : List (Json F)} {texts : List Str}
    (hreads : List.Forall₂ (Reads floats n) items texts) : ∀ t ∈ texts, Printable t := by
  induction hreads with
  | nil => simp
  | cons hread _ ih => exact List.forall_mem_cons.mpr ⟨hread.printable, ih⟩

theorem scanElements_commaJoin {n : Nat} {items : List (Json F)} {texts : List Str}
    (hreads : List.Forall₂ (Reads floats n) items texts) (hne : items ≠ []) {fuel : Nat}
    (hfuel : texts.length ≤ fuel) (rest : Str) :
    scanElements (scanOnce floats n) fuel (commaJoin texts ++ 93 :: rest) =
      if items.all (fits n) then .ok (normalizeItems items, rest) else .error .recursionError := by
  induction hreads generalizing fuel with
  | nil => exact absurd rfl hne
  | @cons v text items texts hread hreads ih =>
      obtain ⟨fuel, rfl⟩ : ∃ k, fuel = k + 1 := ⟨fuel - 1, by simp at hfuel; omega⟩
      cases hreads with
      | nil =>
          have hscan := hread.scan _ (ends_bracket rest)
          simp only [commaJoin, List.all_cons, List.all_nil, Bool.and_true]
          cases hfits : fits n v with
          | false =>
              rw [hfits] at hscan
              exact scanElements_error hscan
          | true =>
              rw [hfits] at hscan
              exact scanElements_last hscan
      | @cons v' text' items texts hread' hreads =>
          have hscan := hread.scan _ (ends_comma (commaJoin (text' :: texts) ++ 93 :: rest))
          have hstarts : Starts (commaJoin (text' :: texts)) :=
            starts_commaJoin (by simp) (starts_of_reads (.cons hread' hreads))
          rw [commaJoin_cons _ (by simp), List.append_assoc, List.cons_append, List.all_cons]
          cases hfits : fits n v with
          | false =>
              rw [hfits] at hscan
              exact scanElements_error hscan
          | true =>
              rw [hfits] at hscan
              rw [scanElements_comma hscan, hstarts.skipSpace,
                ih (by simp) (Nat.le_of_succ_le_succ hfuel), Bool.true_and]
              split <;> rfl

/-- The text of a member, with the text of its value. -/
def Member (floats : Floats F) (n : Nat) (entry : Str × Json F) (text : Str) : Prop :=
  ∃ value, Reads floats n entry.2 value ∧ text = stringText entry.1 ++ 58 :: value

theorem starts_member (key value : Str) : Starts (stringText key ++ 58 :: value) :=
  ⟨34, _, rfl, by decide, by decide, by decide⟩

theorem starts_of_members {n : Nat} {entries : List (Str × Json F)} {texts : List Str}
    (hmembers : List.Forall₂ (Member floats n) entries texts) : ∀ t ∈ texts, Starts t := by
  induction hmembers with
  | nil => simp
  | cons hmember _ ih =>
      obtain ⟨value, -, rfl⟩ := hmember
      exact List.forall_mem_cons.mpr ⟨starts_member _ value, ih⟩

theorem printable_of_members {n : Nat} {entries : List (Str × Json F)} {texts : List Str}
    (hmembers : List.Forall₂ (Member floats n) entries texts) : ∀ t ∈ texts, Printable t := by
  induction hmembers with
  | nil => simp
  | cons hmember _ ih =>
      obtain ⟨value, hread, rfl⟩ := hmember
      refine List.forall_mem_cons.mpr ⟨(printable_stringText _).append ?_, ih⟩
      exact .cons (by decide) hread.printable

theorem Starts.append {text : Str} (h : Starts text) (rest : Str) : Starts (text ++ rest) := by
  obtain ⟨c, s, rfl, hc⟩ := h
  exact ⟨c, s ++ rest, rfl, hc⟩

theorem scanMembers_commaJoin {n : Nat} {entries : List (Str × Json F)} {texts : List Str}
    (hmembers : List.Forall₂ (Member floats n) entries texts) (hne : entries ≠ []) {fuel : Nat}
    (hfuel : texts.length ≤ fuel) (read : List (Str × Json F)) (rest : Str) :
    scanMembers (scanOnce floats n) fuel read (commaJoin texts ++ 125 :: rest) =
      if entries.all fun entry => fits n entry.2 then .ok (normalizeEntries read entries, rest)
      else .error .recursionError := by
  induction hmembers generalizing fuel read with
  | nil => exact absurd rfl hne
  | @cons entry text entries texts hmember hmembers ih =>
      obtain ⟨fuel, rfl⟩ : ∃ k, fuel = k + 1 := ⟨fuel - 1, by simp at hfuel; omega⟩
      obtain ⟨key, v⟩ := entry
      obtain ⟨value, hread, rfl⟩ := hmember
      cases hmembers with
      | nil =>
          have hscan := hread.scan _ (ends_brace rest)
          simp only [commaJoin, List.append_assoc, List.cons_append, List.all_cons, List.all_nil,
            Bool.and_true]
          cases hfits : fits n v with
          | false =>
              rw [hfits] at hscan
              exact scanMembers_error (hread.starts.append _) hscan
          | true =>
              rw [hfits] at hscan
              exact scanMembers_last (hread.starts.append _) hscan
      | @cons entry' text' entries texts hmember' hmembers =>
          have hscan := hread.scan _ (ends_comma (commaJoin (text' :: texts) ++ 125 :: rest))
          have hstarts : Starts (commaJoin (text' :: texts)) :=
            starts_commaJoin (by simp) (starts_of_members (.cons hmember' hmembers))
          rw [commaJoin_cons _ (by simp)]
          simp only [List.append_assoc, List.cons_append]
          rw [List.all_cons]
          cases hfits : fits n v with
          | false =>
              rw [hfits] at hscan
              rw [scanMembers_error (hread.starts.append _) hscan]
              rfl
          | true =>
              rw [hfits] at hscan
              rw [scanMembers_comma (hread.starts.append _) hscan, hstarts.skipSpace,
                ih (by simp) (Nat.le_of_succ_le_succ hfuel), Bool.true_and]
              rfl

theorem constants_eq : (constants : List (Str × Json F)) =
    [([110, 117, 108, 108], .null), ([116, 114, 117, 101], .bool true),
      ([102, 97, 108, 115, 101], .bool false), ([78, 97, 78], .float .nan),
      ([73, 110, 102, 105, 110, 105, 116, 121], .float .infinity),
      ([45, 73, 110, 102, 105, 110, 105, 116, 121], .float .negInfinity)] := rfl

theorem scanOnce_atom {c : CodePoint} (hc : c ≠ 34 ∧ c ≠ 123 ∧ c ≠ 91) (n : Nat) (s : Str) :
    scanOnce floats n (c :: s) = scanAtom floats (c :: s) := by
  obtain ⟨hquote, hbrace, hbracket⟩ := hc
  cases n <;> simp [scanOnce, hquote, hbrace, hbracket]

theorem reads_constant {k : Str × Json F} (hk : k ∈ constants) (n : Nat) :
    Reads floats n k.2 k.1 := by
  rw [constants_eq] at hk
  simp only [List.mem_cons, List.not_mem_nil, or_false] at hk
  have hfits : fits n k.2 = true ∧ normalize k.2 = k.2 := by
    rcases hk with rfl | rfl | rfl | rfl | rfl | rfl <;> exact ⟨by cases n <;> rfl, rfl⟩
  refine ⟨?_, ?_, fun rest _ => ?_⟩
  · rcases hk with rfl | rfl | rfl | rfl | rfl | rfl
    all_goals exact ⟨_, _, rfl, by decide, by decide, by decide⟩
  · rcases hk with rfl | rfl | rfl | rfl | rfl | rfl <;> simp [Printable]
  rw [hfits.1, hfits.2, if_pos rfl]
  rcases hk with rfl | rfl | rfl | rfl | rfl | rfl
  all_goals
    rw [List.cons_append, scanOnce_atom (by decide), scanAtom, constants_eq]
    simp [List.isPrefixOf]

theorem text_literal (l : Literal) : ∃ c s, l.text = c :: s ∧ (isDigit c = true ∨
    c = 45 ∧ ∃ d s', s = d :: s' ∧ isDigit d = true) := by
  obtain ⟨d, digits, hwhole, hd⟩ := isWhole_cons l.isWhole
  rw [Literal.text, hwhole]
  rcases l.isSign with hsign | hsign
  · rw [hsign]
    exact ⟨d, _, rfl, .inl hd⟩
  · rw [hsign]
    exact ⟨45, _, rfl, .inr ⟨rfl, d, _, rfl, hd⟩⟩

theorem ne_of_isDigit {c d : CodePoint} (hc : isDigit c = true) (hd : isDigit d = false) :
    d ≠ c := by
  rintro rfl
  rw [hc] at hd
  cases hd

theorem scanAtom_literal (l : Literal) (rest : Str) :
    scanAtom floats (l.text ++ rest) = scanNumber floats (l.text ++ rest) := by
  have hnone : (constants.find? fun k : Str × Json F => k.1.isPrefixOf (l.text ++ rest)) =
      none := by
    rw [constants_eq]
    obtain ⟨c, s, htext, hc | ⟨rfl, d, s', rfl, hd⟩⟩ := text_literal l
    · rw [htext]
      simp [List.isPrefixOf, ne_of_isDigit hc (d := 110) rfl, ne_of_isDigit hc (d := 116) rfl,
        ne_of_isDigit hc (d := 102) rfl, ne_of_isDigit hc (d := 78) rfl,
        ne_of_isDigit hc (d := 73) rfl, ne_of_isDigit hc (d := 45) rfl]
    · rw [htext]
      simp [List.isPrefixOf, ne_of_isDigit hd (d := 73) rfl]
  rw [scanAtom, hnone]

theorem reads_literal {l : Literal} {v : Json F} {n : Nat} (hfits : fits n v = true)
    (hnumber : ∀ rest, NotNumeric rest →
      scanNumber floats (l.text ++ rest) = .ok (normalize v, rest)) :
    Reads floats n v l.text := by
  obtain ⟨c, s, htext, hc⟩ := text_literal l
  have hbounds : 32 < c.val ∧ c.val < 91 := by
    rcases hc with hc | ⟨rfl, -⟩
    · simp only [isDigit, Bool.and_eq_true, decide_eq_true_eq] at hc
      omega
    · decide
  have hne (d : CodePoint) (hd : 91 ≤ d.val) : c ≠ d := by
    rintro rfl
    omega
  have hquote : c ≠ 34 := by
    rcases hc with hc | ⟨rfl, -⟩
    · exact (ne_of_isDigit hc rfl).symm
    · decide
  refine ⟨⟨c, s, htext, hbounds.1, hne 93 (by decide), hne 125 (by decide)⟩,
    printable_literal l, fun rest hends => ?_⟩
  have hscan : scanAtom floats (l.text ++ rest) = scanNumber floats (l.text ++ rest) :=
    scanAtom_literal l rest
  rw [hnumber rest hends.notNumeric, htext, List.cons_append] at hscan
  rw [htext, List.cons_append, scanOnce_atom ⟨hquote, hne 123 (by decide), hne 91 (by decide)⟩,
    hscan, hfits, if_pos rfl]

theorem reads_string (s : Str) (n : Nat) : Reads floats n (.str s) (stringText s) := by
  refine ⟨⟨34, _, rfl, by decide, by decide, by decide⟩, printable_stringText s, fun rest _ => ?_⟩
  have htext : stringText s ++ rest = 34 :: (s.flatMap escape ++ 34 :: rest) := by
    simp [stringText]
  rw [htext]
  cases n with
  | zero =>
      rw [scanOnce, if_pos rfl, scanString_stringText]
      rfl
  | succ n =>
      rw [scanOnce, if_pos rfl, scanString_stringText]
      rfl

theorem scanArray_elements {scan : Str → Except Failure (Json F × Str)} {s : Str} (hs : Starts s) :
    scanArray scan s = (scanElements scan s.length s).map fun out => (.list out.1, out.2) := by
  have hspace := hs.skipSpace []
  obtain ⟨c, rest, rfl, -, hbracket, -⟩ := hs
  rw [List.append_nil] at hspace
  rw [scanArray, hspace]
  simp only [next, ok_bind, hbracket, if_false]
  cases scanElements scan (c :: rest).length (c :: rest) <;> rfl

theorem scanObject_members {scan : Str → Except Failure (Json F × Str)} {s : Str} (hs : Starts s) :
    scanObject scan s = (scanMembers scan s.length [] s).map fun out => (.dict out.1, out.2) := by
  have hspace := hs.skipSpace []
  obtain ⟨c, rest, rfl, -, -, hbrace⟩ := hs
  rw [List.append_nil] at hspace
  rw [scanObject, hspace]
  simp only [next, ok_bind, hbrace, if_false]
  cases scanMembers scan (c :: rest).length [] (c :: rest) <;> rfl

theorem scanArray_empty (scan : Str → Except Failure (Json F × Str)) (rest : Str) :
    scanArray scan (93 :: rest) = .ok (.list [], rest) := by
  rw [scanArray, next_skipSpace (by decide)]
  rfl

theorem scanObject_empty (scan : Str → Except Failure (Json F × Str)) (rest : Str) :
    scanObject scan (125 :: rest) = .ok (.dict [], rest) := by
  rw [scanObject, next_skipSpace (by decide)]
  rfl

theorem fuel_enough (texts : List Str) (c : CodePoint) (rest : Str) :
    texts.length ≤ (commaJoin texts ++ c :: rest).length := by
  have hle := length_le_commaJoin texts
  simp only [List.length_append, List.length_cons]
  omega

theorem reads_list {n : Nat} {items : List (Json F)} {texts : List Str}
    (hreads : List.Forall₂ (Reads floats n) items texts) :
    Reads floats (n + 1) (.list items) (91 :: (commaJoin texts ++ [93])) := by
  refine ⟨⟨91, _, rfl, by decide, by decide, by decide⟩,
    printable_brackets (printable_of_reads hreads) (by decide) (by decide), fun rest _ => ?_⟩
  have htext : 91 :: (commaJoin texts ++ [93]) ++ rest = 91 :: (commaJoin texts ++ 93 :: rest) := by
    simp
  rw [htext, scanOnce, if_neg (by decide), if_neg (by decide), if_pos rfl]
  cases hreads with
  | nil => exact scanArray_empty _ rest
  | @cons v text items texts hread hreads =>
      have hreads : List.Forall₂ (Reads floats n) (v :: items) (text :: texts) := .cons hread hreads
      have hstarts := starts_commaJoin (by simp) (starts_of_reads hreads)
      have hfits : fits (n + 1) (.list (v :: items)) = (v :: items).all (fits n) := rfl
      rw [scanArray_elements (hstarts.append _),
        scanElements_commaJoin hreads (by simp) (fuel_enough _ 93 rest), hfits]
      cases (v :: items).all (fits n) <;> rfl

theorem reads_dict {n : Nat} {entries : List (Str × Json F)} {texts : List Str}
    (hmembers : List.Forall₂ (Member floats n) entries texts) :
    Reads floats (n + 1) (.dict entries) (123 :: (commaJoin texts ++ [125])) := by
  refine ⟨⟨123, _, rfl, by decide, by decide, by decide⟩,
    printable_brackets (printable_of_members hmembers) (by decide) (by decide), fun rest _ => ?_⟩
  have htext : 123 :: (commaJoin texts ++ [125]) ++ rest =
      123 :: (commaJoin texts ++ 125 :: rest) := by
    simp
  rw [htext, scanOnce, if_neg (by decide), if_pos rfl]
  cases hmembers with
  | nil => exact scanObject_empty _ rest
  | @cons entry text entries texts hmember hmembers =>
      have hmembers : List.Forall₂ (Member floats n) (entry :: entries) (text :: texts) :=
        .cons hmember hmembers
      have hstarts := starts_commaJoin (by simp) (starts_of_members hmembers)
      have hfits : fits (n + 1) (.dict (entry :: entries)) =
          (entry :: entries).all fun entry => fits n entry.2 := rfl
      rw [scanObject_members (hstarts.append _),
        scanMembers_commaJoin hmembers (by simp) (fuel_enough _ 125 rest), hfits]
      cases (entry :: entries).all fun entry => fits n entry.2 <;> rfl

theorem reads_too_deep {v : Json F} (hdeep : fits 0 v = false) {c : CodePoint} {s : Str}
    (hc : c = 91 ∨ c = 123) (hprintable : Printable (c :: s)) : Reads floats 0 v (c :: s) := by
  refine ⟨⟨c, s, rfl, ?_⟩, hprintable, fun rest _ => ?_⟩
  · rcases hc with rfl | rfl <;> exact ⟨by decide, by decide, by decide⟩
  · rw [hdeep]
    rcases hc with rfl | rfl <;> rfl

theorem bind_eq_ok {α β : Type} {x : Except Failure α} {f : α → Except Failure β} {b : β}
    (h : x >>= f = .ok b) : ∃ a, x = .ok a ∧ f a = .ok b := by
  cases x with
  | error e => cases h
  | ok a => exact ⟨a, rfl, h⟩

theorem forall₂_of_mapM {α β : Type} {f : α → Except Failure β} {as : List α} {bs : List β}
    (h : as.mapM f = .ok bs) : List.Forall₂ (fun a b => f a = .ok b) as bs := by
  induction as generalizing bs with
  | nil =>
      cases h
      exact .nil
  | cons a as ih =>
      rw [List.mapM_cons] at h
      obtain ⟨b, ha, h⟩ := bind_eq_ok h
      obtain ⟨bs', has, h⟩ := bind_eq_ok h
      cases h
      exact .cons ha (ih has)

theorem reads_scalar {m : Nat} {v : Json F} {text : Str} (h : dumps floats m v = .ok text)
    (hlist : ∀ items, v ≠ .list items) (hdict : ∀ entries, v ≠ .dict entries) (n : Nat) :
    Reads floats n v text := by
  cases v with
  | list items => exact absurd rfl (hlist items)
  | dict entries => exact absurd rfl (hdict entries)
  | null =>
      rw [dumps] at h
      cases h
      exact reads_constant (k := (ofString "null", .null)) (by simp [constants]) n
  | bool b =>
      rw [dumps] at h
      cases h
      cases b with
      | false =>
          exact reads_constant (k := (ofString "false", .bool false)) (by simp [constants]) n
      | true => exact reads_constant (k := (ofString "true", .bool true)) (by simp [constants]) n
  | int i =>
      rw [dumps, intText_eq] at h
      split at h
      · rename_i hdigits
        cases h
        exact reads_literal (by cases n <;> rfl) fun rest hrest => scanNumber_int hdigits hrest
      · cases h
  | float x =>
      rw [dumps] at h
      cases h
      cases x with
      | finite x =>
          exact reads_literal (by cases n <;> rfl) fun rest hrest => scanNumber_float x hrest
      | nan => exact reads_constant (k := (ofString "NaN", .float .nan)) (by simp [constants]) n
      | infinity =>
          exact reads_constant (k := (ofString "Infinity", .float .infinity)) (by simp [constants]) n
      | negInfinity =>
          exact reads_constant (k := (ofString "-Infinity", .float .negInfinity))
            (by simp [constants]) n
  | str s =>
      rw [dumps] at h
      cases h
      exact reads_string s n

theorem reads_dumps {m : Nat} {v : Json F} {text : Str} (h : dumps floats m v = .ok text)
    (n : Nat) : Reads floats n v text := by
  induction m generalizing v text n with
  | zero =>
      refine reads_scalar h ?_ ?_ n
      · rintro items rfl
        cases h
      · rintro entries rfl
        cases h
  | succ m ih =>
      cases v with
      | list items =>
          rw [dumps] at h
          obtain ⟨texts, htexts, hout⟩ := bind_eq_ok h
          cases hout
          have hreads (n : Nat) : List.Forall₂ (Reads floats n) items texts :=
            (forall₂_of_mapM htexts).imp fun _ _ h => ih h n
          cases n with
          | zero => exact reads_too_deep rfl (.inl rfl) (reads_list (hreads 0)).printable
          | succ n => exact reads_list (hreads n)
      | dict entries =>
          rw [dumps] at h
          obtain ⟨texts, htexts, hout⟩ := bind_eq_ok h
          cases hout
          have hmembers (n : Nat) : List.Forall₂ (Member floats n) entries texts := by
            refine (forall₂_of_mapM htexts).imp fun entry text hentry => ?_
            obtain ⟨value, hvalue, hout⟩ := bind_eq_ok hentry
            cases hout
            exact ⟨value, ih hvalue n, rfl⟩
          cases n with
          | zero => exact reads_too_deep rfl (.inr rfl) (reads_dict (hmembers 0)).printable
          | succ n => exact reads_dict (hmembers n)
      | _ => exact reads_scalar h (by simp) (by simp) n

theorem detectEncoding_utf8 {b : Bytes} (h : ∀ x ∈ b, 0 < x.toNat ∧ x.toNat < 128) :
    detectEncoding b = .utf8 := by
  have hne (x y : UInt8) (hx : x ∈ b) (hy : y.toNat = 0 ∨ 128 ≤ y.toNat) : y ≠ x := by
    rintro rfl
    have := h y hx
    omega
  match b, hne with
  | [], _ => rfl
  | b₀ :: rest, hne =>
      have hmark (y : UInt8) (hy : y.toNat = 0 ∨ 128 ≤ y.toNat) (mark : Bytes) :
          (y :: mark).isPrefixOf (b₀ :: rest) = false := by
        have := hne b₀ y List.mem_cons_self hy
        simp [List.isPrefixOf, this]
      have hnull (x : UInt8) (hx : x ∈ b₀ :: rest) : x ≠ 0 := (hne x 0 hx (by decide)).symm
      unfold detectEncoding
      rw [hmark 0 (by decide), hmark 0xFF (by decide), hmark 0xFE (by decide),
        hmark 0xFF (by decide), hmark 0xEF (by decide)]
      match rest, hnull with
      | [], _ => rfl
      | [b₁], hnull => simp [hnull b₀ (by simp), hnull b₁ (by simp)]
      | [_, _], _ => rfl
      | b₁ :: b₂ :: b₃ :: rest, hnull => simp [hnull b₀ (by simp), hnull b₁ (by simp)]

theorem detectEncoding_printable {s : Str} (h : Printable s) :
    detectEncoding (asciiBytes s) = .utf8 := by
  refine detectEncoding_utf8 fun x hx => ?_
  obtain ⟨c, hc, rfl⟩ := List.mem_map.mp hx
  have hbounds := h c hc
  have hbyte : (UInt8.ofNat c.val).toNat = c.val :=
    UInt8.toNat_ofNat_of_lt' (Nat.lt_of_le_of_lt hbounds.2 (by decide))
  omega

theorem loads_dumps {m : Nat} {v : Json F} {text : Str} (h : dumps floats m v = .ok text)
    (n : Nat) : loads floats n (asciiBytes text) =
      if fits n v then .ok (normalize v) else .error .recursionError := by
  have hreads := reads_dumps h n
  have hspace := hreads.starts.skipSpace []
  have hscan := hreads.scan [] (by simp [Ends])
  rw [List.append_nil] at hspace hscan
  simp only [loads, detectEncoding_printable hreads.printable, decode,
    decodeUtf8_ascii hreads.printable.isAscii, hspace, hscan]
  cases fits n v <;> rfl

def children : Json F → List (Json F)
  | .list items => items
  | .dict entries => entries.map Prod.snd
  | _ => []

/-- The value and all those inside it. -/
inductive Everywhere (P : Json F → Prop) : Json F → Prop where
  | intro {v : Json F} (here : P v) (below : ∀ w ∈ children v, Everywhere P w) : Everywhere P v

/-- An integer that `int.__repr__` writes. -/
def ShortInt : Json F → Prop
  | .int i => (decimal i.natAbs).length ≤ maxStrDigits
  | _ => True

theorem mapM_ok_iff {α β : Type} {f : α → Except Failure β} {as : List α} :
    (∃ bs, as.mapM f = .ok bs) ↔ ∀ a ∈ as, ∃ b, f a = .ok b := by
  induction as with
  | nil => exact ⟨fun _ => by simp, fun _ => ⟨[], rfl⟩⟩
  | cons a as ih =>
      rw [List.forall_mem_cons, ← ih, List.mapM_cons]
      constructor
      · rintro ⟨bs, h⟩
        obtain ⟨b, hb, h⟩ := bind_eq_ok h
        obtain ⟨bs', hbs, -⟩ := bind_eq_ok h
        exact ⟨⟨b, hb⟩, bs', hbs⟩
      · rintro ⟨⟨b, hb⟩, bs, hbs⟩
        refine ⟨b :: bs, ?_⟩
        rw [hb, ok_bind, hbs]
        rfl

theorem bind_pure_ok_iff {α β : Type} {x : Except Failure α} {f : α → β} :
    (∃ b, (do let a ← x; return f a) = .ok b) ↔ ∃ a, x = .ok a := by
  cases x with
  | error e => exact ⟨fun ⟨b, h⟩ => (by cases h), fun ⟨a, h⟩ => (by cases h)⟩
  | ok a => exact ⟨fun _ => ⟨a, rfl⟩, fun _ => ⟨f a, rfl⟩⟩

theorem everywhere_iff {P : Json F → Prop} {v : Json F} :
    Everywhere P v ↔ P v ∧ ∀ w ∈ children v, Everywhere P w :=
  ⟨fun ⟨here, below⟩ => ⟨here, below⟩, fun ⟨here, below⟩ => ⟨here, below⟩⟩

theorem intText_ok_iff {i : Int} :
    (∃ text, intText i = .ok text) ↔ (decimal i.natAbs).length ≤ maxStrDigits := by
  rw [intText_eq]
  split
  · rename_i hshort
    exact ⟨fun _ => hshort, fun _ => ⟨_, rfl⟩⟩
  · rename_i hlong
    exact ⟨fun ⟨_, h⟩ => (by cases h), fun hshort => absurd hshort hlong⟩

theorem dumps_ok_iff {m : Nat} {v : Json F} :
    (∃ text, dumps floats m v = .ok text) ↔ fits m v = true ∧ Everywhere ShortInt v := by
  induction m generalizing v with
  | zero =>
      rw [everywhere_iff]
      cases v with
      | int i =>
          rw [dumps, intText_ok_iff]
          simp [fits, children, ShortInt]
      | _ => simp [dumps, fits, children, ShortInt]
  | succ m ih =>
      rw [everywhere_iff]
      cases v with
      | int i =>
          rw [dumps, intText_ok_iff]
          simp [fits, children, ShortInt]
      | list items =>
          rw [dumps, bind_pure_ok_iff, mapM_ok_iff]
          simp only [ih, fits, List.all_eq_true, children, ShortInt, true_and]
          exact forall₂_and
      | dict entries =>
          rw [dumps, bind_pure_ok_iff, mapM_ok_iff]
          simp only [bind_pure_ok_iff, ih, fits, List.all_eq_true, children, ShortInt, true_and,
            List.forall_mem_map]
          exact forall₂_and
      | _ => simp [dumps, fits, children, ShortInt]

/-- No pair of surrogates in a string, and none in a key. -/
def Unpaired : Json F → Prop
  | .str s => PairFree s
  | .dict entries => ∀ entry ∈ entries, PairFree entry.1
  | _ => True

def DistinctKeys : Json F → Prop
  | .dict entries => (entries.map Prod.fst).Nodup
  | _ => True

theorem normalizeItems_eq_map (items : List (Json F)) :
    normalizeItems items = items.map normalize := by
  induction items with
  | nil => rfl
  | cons v items ih => rw [normalizeItems, ih, List.map_cons]

theorem normalizeEntries_eq_self {read entries : List (Str × Json F)}
    (hentries : ∀ entry ∈ entries, PairFree entry.1 ∧ normalize entry.2 = entry.2)
    (hkeys : ((read ++ entries).map Prod.fst).Nodup) :
    normalizeEntries read entries = read ++ entries := by
  induction entries generalizing read with
  | nil => rw [normalizeEntries, List.append_nil]
  | cons entry entries ih =>
      obtain ⟨key, v⟩ := entry
      obtain ⟨⟨hkey, hv⟩, hrest⟩ := List.forall_mem_cons.mp hentries
      have hfresh : key ∉ read.map Prod.fst := by
        intro hmem
        rw [List.map_append] at hkeys
        exact (List.nodup_append.mp hkeys).2.2 key hmem key List.mem_cons_self rfl
      rw [List.append_cons] at hkeys ⊢
      rw [normalizeEntries, joinPairs_of_pairFree hkey, hv, setItem_fresh hfresh, ih hrest hkeys]

theorem normalize_eq_self {v : Json F} (hpairs : Everywhere Unpaired v)
    (hkeys : Everywhere DistinctKeys v) : normalize v = v := by
  induction hpairs with
  | @intro v here below ih =>
      obtain ⟨hdistinct, hbelow⟩ := everywhere_iff.mp hkeys
      cases v with
      | str s => rw [normalize, joinPairs_of_pairFree here]
      | list items =>
          have hitems : items.map normalize = items.map fun w => w :=
            List.map_congr_left fun w hw => ih w hw (hbelow w hw)
          rw [List.map_id'] at hitems
          rw [normalize, normalizeItems_eq_map, hitems]
      | dict entries =>
          have hentries : ∀ entry ∈ entries, PairFree entry.1 ∧ normalize entry.2 = entry.2 := by
            intro entry hentry
            have hchild : entry.2 ∈ children (.dict entries) := List.mem_map_of_mem hentry
            exact ⟨here entry hentry, ih _ hchild (hbelow _ hchild)⟩
          have hkeys : (([] ++ entries).map Prod.fst).Nodup := hdistinct
          rw [normalize, normalizeEntries_eq_self hentries hkeys, List.nil_append]
      | _ => rfl

theorem sizeOf_child {v w : Json F} (h : w ∈ children v) : sizeOf w < sizeOf v := by
  cases v with
  | list items =>
      have hlt : sizeOf w < sizeOf items := List.sizeOf_lt_of_mem h
      simp only [Json.list.sizeOf_spec]
      omega
  | dict entries =>
      obtain ⟨⟨key, v⟩, hentry, rfl⟩ := List.mem_map.mp h
      have hlt := List.sizeOf_lt_of_mem hentry
      simp only [Json.dict.sizeOf_spec, Prod.mk.sizeOf_spec] at hlt ⊢
      omega
  | _ => cases h

theorem children_induction {P : Json F → Prop}
    (h : ∀ v, (∀ w ∈ children v, P w) → P v) (v : Json F) : P v :=
  h v fun w hw =>
    have : sizeOf w < sizeOf v := sizeOf_child hw
    children_induction h w
termination_by sizeOf v

theorem mem_normalizeEntries {read entries : List (Str × Json F)} {entry : Str × Json F}
    (h : entry ∈ normalizeEntries read entries) :
    entry ∈ read ∨ ∃ x ∈ entries, entry = (joinPairs x.1, normalize x.2) := by
  induction entries generalizing read with
  | nil => exact .inl h
  | cons first entries ih =>
      rcases ih h with hread | ⟨x, hx, rfl⟩
      · rcases mem_setItem hread with hold | rfl
        · exact .inl hold
        · exact .inr ⟨first, List.mem_cons_self, rfl⟩
      · exact .inr ⟨x, List.mem_cons_of_mem _ hx, rfl⟩

theorem unpaired_normalize (v : Json F) : Everywhere Unpaired (normalize v) := by
  induction v using children_induction with
  | h v ih =>
      refine everywhere_iff.mpr ?_
      cases v with
      | str s => exact ⟨pairFree_joinPairs s, by simp [normalize, children]⟩
      | list items =>
          refine ⟨trivial, ?_⟩
          rw [normalize, normalizeItems_eq_map]
          intro w hw
          obtain ⟨x, hx, rfl⟩ := List.mem_map.mp hw
          exact ih x hx
      | dict entries =>
          rw [normalize]
          refine ⟨?_, ?_⟩
          · intro entry hentry
            rcases mem_normalizeEntries hentry with hread | ⟨x, -, rfl⟩
            · cases hread
            · exact pairFree_joinPairs x.1
          · intro w hw
            obtain ⟨entry, hentry, rfl⟩ := List.mem_map.mp hw
            rcases mem_normalizeEntries hentry with hread | ⟨x, hx, rfl⟩
            · cases hread
            · exact ih _ (List.mem_map_of_mem hx)
      | _ => exact ⟨trivial, by simp [normalize, children]⟩

/-- A value comes back as it was exactly when no string of it has a pair. -/
theorem normalize_eq_self_iff {v : Json F} (hkeys : Everywhere DistinctKeys v) :
    normalize v = v ↔ Everywhere Unpaired v := by
  constructor
  · intro h
    rw [← h]
    exact unpaired_normalize v
  · exact fun hpairs => normalize_eq_self hpairs hkeys

end Socle.JsonRoundTrip
