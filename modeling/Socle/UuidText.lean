import Socle.JsonTokens

/-!
The text of a UUID: `str` writes 32 hexadecimal digits in five groups, and the constructor
reads them back, in braces or after a URN prefix as well.
-/

namespace Socle.UuidText

open Socle.PythonText
open Socle.PythonJson
open Socle.JsonTokens

/-- The last `k` hexadecimal digits, the most significant first. -/
def hexDigits : Nat → Nat → Str
  | 0, _ => []
  | k + 1, n => hexDigits k (n / 16) ++ [hexDigit (n % 16)]

/-- The number that hexadecimal digits write. -/
def hexNumber (digits : Str) : Option Nat :=
  digits.foldl (fun n c => n.bind fun n => (hexValue c).map fun v => n * 16 + v) (some 0)

def hyphen : CodePoint := 45

def colon : CodePoint := 58

/-- `str(uuid)`. -/
def uuidText (n : Nat) : Str :=
  let hex := hexDigits 32 n
  hex.take 8 ++ hyphen :: ((hex.drop 8).take 4 ++ hyphen :: ((hex.drop 12).take 4 ++
    hyphen :: ((hex.drop 16).take 4 ++ hyphen :: hex.drop 20)))

/-- `s.replace(pattern, "")`, for a pattern that is not empty. -/
def removeAll (pattern : Str) : Str → Str
  | [] => []
  | c :: rest =>
      if pattern.isPrefixOf (c :: rest) then
        removeAll pattern ((c :: rest).drop (max 1 pattern.length))
      else c :: removeAll pattern rest
termination_by s => s.length
decreasing_by
  · rw [List.length_drop]
    simp only [List.length_cons]
    omega
  · simp

def isBrace (c : CodePoint) : Bool := c == 123 || c == 125

/-- `s.strip("{}")`. -/
def stripBraces (s : Str) : Str := ((s.dropWhile isBrace).reverse.dropWhile isBrace).reverse

/-- `uuid.UUID(s)`; `none` is its `ValueError`. -/
def uuidOf (s : Str) : Option Nat :=
  let bare := stripBraces (removeAll (ofString "uuid:") (removeAll (ofString "urn:") s))
  let hex := bare.filter fun c => c != hyphen
  if hex.length = 32 then hexNumber hex else none

theorem length_hexDigits (k n : Nat) : (hexDigits k n).length = k := by
  induction k generalizing n with
  | zero => rfl
  | succ k ih => simp [hexDigits, ih]

theorem hexNumber_hexDigits (k n : Nat) : hexNumber (hexDigits k n) = some (n % 16 ^ k) := by
  induction k generalizing n with
  | zero => simp [hexDigits, hexNumber, Nat.mod_one]
  | succ k ih =>
      have hlast := hexValue_hexDigit (Nat.mod_lt n (by decide : 16 > 0))
      have hsplit : n / 16 % 16 ^ k * 16 + n % 16 = n % 16 ^ (k + 1) := by
        rw [Nat.pow_succ', Nat.mod_mul]
        omega
      have hstep : hexNumber (hexDigits (k + 1) n) = (hexNumber (hexDigits k (n / 16))).bind
          fun m => (hexValue (hexDigit (n % 16))).map fun v => m * 16 + v := by
        rw [hexNumber, hexDigits, List.foldl_append]
        rfl
      rw [hstep, ih, hlast, Option.bind_some, Option.map_some, hsplit]

theorem hexDigit_plain {v : Nat} (hv : v < 16) :
    hexDigit v ≠ hyphen ∧ hexDigit v ≠ colon ∧ isBrace (hexDigit v) = false := by
  revert v
  decide

theorem mem_hexDigits {k n : Nat} {c : CodePoint} (hc : c ∈ hexDigits k n) :
    ∃ v < 16, c = hexDigit v := by
  induction k generalizing n with
  | zero => cases hc
  | succ k ih =>
      rcases List.mem_append.mp hc with hfirst | hlast
      · exact ih hfirst
      · exact ⟨n % 16, Nat.mod_lt n (by decide), List.mem_singleton.mp hlast⟩

theorem removeAll_of_notMem {pattern : Str} {d : CodePoint} (hd : d ∈ pattern) {s : Str}
    (hs : d ∉ s) : removeAll pattern s = s := by
  induction s with
  | nil => rw [removeAll]
  | cons c rest ih =>
      have hnot : pattern.isPrefixOf (c :: rest) = false := by
        refine Bool.eq_false_iff.mpr fun hprefix => hs ?_
        exact (List.isPrefixOf_iff_prefix.mp hprefix).subset hd
      rw [removeAll, hnot, if_neg Bool.false_ne_true, ih fun h => hs (List.mem_cons_of_mem _ h)]

theorem stripBraces_of_plain {s : Str} (hs : ∀ c ∈ s, isBrace c = false) : stripBraces s = s := by
  have hkeep {t : Str} (ht : ∀ c ∈ t, isBrace c = false) : t.dropWhile isBrace = t := by
    cases t with
    | nil => rfl
    | cons c rest => simp [ht c List.mem_cons_self]
  rw [stripBraces, hkeep hs, hkeep fun c hc => hs c (List.mem_reverse.mp hc), List.reverse_reverse]

theorem filter_uuidText (n : Nat) :
    (uuidText n).filter (fun c => c != hyphen) = hexDigits 32 n := by
  have hplain {s : Str} (hs : s ⊆ hexDigits 32 n) : s.filter (fun c => c != hyphen) = s := by
    refine List.filter_eq_self.mpr fun c hc => ?_
    obtain ⟨v, hv, rfl⟩ := mem_hexDigits (hs hc)
    simpa using (hexDigit_plain hv).1
  have htake (m k : Nat) : ((hexDigits 32 n).drop m).take k ⊆ hexDigits 32 n :=
    fun _ hc => List.drop_subset _ _ (List.take_subset _ _ hc)
  have hgroups : uuidText n = (hexDigits 32 n).take 8 ++ hyphen ::
      (((hexDigits 32 n).drop 8).take 4 ++ hyphen :: (((hexDigits 32 n).drop 12).take 4 ++
        hyphen :: (((hexDigits 32 n).drop 16).take 4 ++ hyphen :: (hexDigits 32 n).drop 20))) := rfl
  have hskip (s : Str) : (hyphen :: s).filter (fun c => c != hyphen) =
      s.filter fun c => c != hyphen := by
    simp
  rw [hgroups, List.filter_append, hskip, List.filter_append, hskip, List.filter_append, hskip,
    List.filter_append, hskip, hplain (List.take_subset _ _), hplain (htake 8 4),
    hplain (htake 12 4), hplain (htake 16 4), hplain (List.drop_subset _ _)]
  have hdrop (m : Nat) : ((hexDigits 32 n).drop m).take 4 ++ (hexDigits 32 n).drop (m + 4) =
      (hexDigits 32 n).drop m := by
    rw [← List.drop_drop, List.take_append_drop]
  rw [hdrop 16, hdrop 12, hdrop 8, List.take_append_drop]

theorem mem_uuidText {n : Nat} {c : CodePoint} (hc : c ∈ uuidText n) :
    c = hyphen ∨ c ∈ hexDigits 32 n := by
  by_cases hhyphen : c = hyphen
  · exact .inl hhyphen
  · refine .inr ?_
    rw [← filter_uuidText]
    exact List.mem_filter.mpr ⟨hc, by simpa using hhyphen⟩

theorem uuidOf_uuidText {n : Nat} (hn : n < 2 ^ 128) : uuidOf (uuidText n) = some n := by
  have hchars : ∀ c ∈ uuidText n, c ≠ colon ∧ isBrace c = false := by
    intro c hc
    rcases mem_uuidText hc with rfl | hdigit
    · decide
    · obtain ⟨v, hv, rfl⟩ := mem_hexDigits hdigit
      exact (hexDigit_plain hv).2
  have hcolon : colon ∉ uuidText n := fun h => (hchars _ h).1 rfl
  have hurn : removeAll (ofString "urn:") (uuidText n) = uuidText n :=
    removeAll_of_notMem (by decide) hcolon
  have huuid : removeAll (ofString "uuid:") (uuidText n) = uuidText n :=
    removeAll_of_notMem (by decide) hcolon
  unfold uuidOf
  rw [hurn, huuid, stripBraces_of_plain fun c hc => (hchars c hc).2]
  simp only [filter_uuidText, length_hexDigits, if_true, hexNumber_hexDigits]
  have hbound : n < 16 ^ 32 := hn
  rw [Nat.mod_eq_of_lt hbound]

end Socle.UuidText
