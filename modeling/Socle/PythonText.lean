import Mathlib.Algebra.Ring.Nat
import Mathlib.Data.List.Basic

/-!
Python's `str` and `bytes`: a string is a list of code points, surrogates
included.  The decoders are those of `bytes.decode` with `surrogatepass`.
-/

namespace Socle.PythonText

abbrev CodePoint := Fin 0x110000

instance (priority := high) neZeroCodePoints : NeZero 0x110000 := ⟨by decide⟩

instance (priority := high) lawfulCodePoints : LawfulBEq CodePoint := inferInstance

abbrev Str := List CodePoint

abbrev Bytes := List UInt8

def ofChar (c : Char) : CodePoint := Fin.ofNat _ c.toNat

def ofString (s : String) : Str := s.toList.map ofChar

def isAscii (s : Str) : Bool := s.all fun c => c.val < 128

def isHigh (c : CodePoint) : Bool := 0xD800 ≤ c.val && c.val < 0xDC00

def isLow (c : CodePoint) : Bool := 0xDC00 ≤ c.val && c.val < 0xE000

theorem isHigh_iff {c : CodePoint} : isHigh c = true ↔ 0xD800 ≤ c.val ∧ c.val < 0xDC00 := by
  simp [isHigh]

theorem isLow_iff {c : CodePoint} : isLow c = true ↔ 0xDC00 ≤ c.val ∧ c.val < 0xE000 := by
  simp [isLow]

/-- `str.partition`, without the separator it found. -/
def partition (separator : CodePoint) : Str → Str × Str
  | [] => ([], [])
  | c :: rest =>
      if c = separator then ([], rest)
      else
        let out := partition separator rest
        (c :: out.1, out.2)

theorem partition_append {separator : CodePoint} {s : Str} (hs : separator ∉ s) (t : Str) :
    partition separator (s ++ separator :: t) = (s, t) := by
  induction s with
  | nil => simp [partition]
  | cons c s ih =>
      obtain ⟨hne, hrest⟩ := not_or.mp (List.mem_cons.not.mp hs)
      simp [partition, Ne.symm hne, ih hrest]

theorem eq_of_partition {separator : CodePoint} {s before after : Str}
    (h : partition separator s = (before, after)) (hafter : after ≠ []) :
    s = before ++ separator :: after := by
  induction s generalizing before with
  | nil =>
      cases h
      exact absurd rfl hafter
  | cons c s ih =>
      simp only [partition] at h
      split at h
      · rename_i hc
        cases h
        rw [hc]
        rfl
      · obtain ⟨rfl, rfl⟩ := Prod.mk.inj h
        exact congrArg (c :: ·) (ih rfl)

/-- The code point a high and a low surrogate stand for. -/
def joinPair (high low : CodePoint) : CodePoint :=
  Fin.ofNat _ (0x10000 + (high.val - 0xD800) * 0x400 + (low.val - 0xDC00))

def highOf (c : CodePoint) : CodePoint := Fin.ofNat _ (0xD800 + (c.val - 0x10000) / 0x400)

def lowOf (c : CodePoint) : CodePoint := Fin.ofNat _ (0xDC00 + (c.val - 0x10000) % 0x400)

theorem joinPair_halves {c : CodePoint} (hc : 0x10000 ≤ c.val) :
    joinPair (highOf c) (lowOf c) = c := by
  have hlt := c.isLt
  apply Fin.ext
  simp only [joinPair, highOf, lowOf, Fin.val_ofNat]
  omega

theorem isHigh_highOf {c : CodePoint} (hc : 0x10000 ≤ c.val) : isHigh (highOf c) = true := by
  have hlt := c.isLt
  rw [isHigh_iff]
  simp only [highOf, Fin.val_ofNat]
  omega

theorem isLow_lowOf (c : CodePoint) : isLow (lowOf c) = true := by
  rw [isLow_iff]
  simp only [lowOf, Fin.val_ofNat]
  omega

theorem joinPair_ge {high low : CodePoint} (hhigh : isHigh high = true) (hlow : isLow low = true) :
    0x10000 ≤ (joinPair high low).val := by
  rw [isHigh_iff] at hhigh
  rw [isLow_iff] at hlow
  simp only [joinPair, Fin.val_ofNat]
  omega

/-- Adjacent surrogates that make a pair become one code point. -/
def joinPairs : Str → Str
  | [] => []
  | [c] => [c]
  | c :: d :: rest =>
      if isHigh c && isLow d then joinPair c d :: joinPairs rest else c :: joinPairs (d :: rest)

/-- No high surrogate stands right before a low one. -/
def PairFree (s : Str) : Prop := List.IsChain (fun c d => ¬ (isHigh c ∧ isLow d)) s

theorem joinPairs_cons (c : CodePoint) (s : Str) :
    ∃ d rest, joinPairs (c :: s) = d :: rest ∧ (d = c ∨ 0x10000 ≤ d.val) := by
  cases s with
  | nil => exact ⟨c, [], rfl, .inl rfl⟩
  | cons d rest =>
      simp only [joinPairs]
      split
      · rename_i hpair
        obtain ⟨hhigh, hlow⟩ := (Bool.and_eq_true _ _).mp hpair
        exact ⟨_, _, rfl, .inr (joinPair_ge hhigh hlow)⟩
      · exact ⟨c, _, rfl, .inl rfl⟩

theorem pairFree_joinPairs (s : Str) : PairFree (joinPairs s) := by
  have hcons (c : CodePoint) (s : Str) (h : PairFree s)
      (hhead : ∀ d ∈ s.head?, ¬ (isHigh c ∧ isLow d)) : PairFree (c :: s) := by
    cases s with
    | nil => exact .singleton c
    | cons d rest => exact List.isChain_cons_cons.mpr ⟨hhead d rfl, h⟩
  induction s using joinPairs.induct with
  | case1 => exact .nil
  | case2 c => exact .singleton c
  | case3 c d rest hpair ih =>
      obtain ⟨hhigh, hlow⟩ := (Bool.and_eq_true _ _).mp hpair
      have hge := joinPair_ge hhigh hlow
      rw [joinPairs, if_pos hpair]
      refine hcons _ _ ih fun e _ hboth => ?_
      have := isHigh_iff.mp hboth.1
      omega
  | case4 c d rest hpair ih =>
      rw [joinPairs, if_neg hpair]
      obtain ⟨e, t, heq, he⟩ := joinPairs_cons d rest
      rw [heq] at ih ⊢
      refine hcons c _ ih ?_
      rintro x ⟨⟩ ⟨hhigh, hlow⟩
      rcases he with rfl | hge
      · exact hpair ((Bool.and_eq_true _ _).mpr ⟨hhigh, hlow⟩)
      · have := isLow_iff.mp hlow
        omega

theorem joinPairs_of_pairFree {s : Str} (h : PairFree s) : joinPairs s = s := by
  induction s using joinPairs.induct with
  | case1 => rfl
  | case2 c => rfl
  | case3 c d rest hpair ih =>
      exact absurd ((Bool.and_eq_true _ _).mp hpair) (List.isChain_cons_cons.mp h).1
  | case4 c d rest hpair ih =>
      rw [joinPairs, if_neg hpair, ih (List.isChain_cons_cons.mp h).2]

/-! ### Encodings -/

/-- The bytes of one code point in UTF-8. -/
def utf8Bytes (c : CodePoint) : Bytes :=
  let n := c.val
  if n < 0x80 then [.ofNat n]
  else if n < 0x800 then [.ofNat (0xC0 + n / 0x40), .ofNat (0x80 + n % 0x40)]
  else if n < 0x10000 then
    [.ofNat (0xE0 + n / 0x1000), .ofNat (0x80 + n / 0x40 % 0x40), .ofNat (0x80 + n % 0x40)]
  else
    [.ofNat (0xF0 + n / 0x40000), .ofNat (0x80 + n / 0x1000 % 0x40),
      .ofNat (0x80 + n / 0x40 % 0x40), .ofNat (0x80 + n % 0x40)]

/-- `str.encode()`; `none` is the `UnicodeEncodeError` of a surrogate. -/
def encode (s : Str) : Option Bytes :=
  if s.any fun c => isHigh c || isLow c then none else some (s.flatMap utf8Bytes)

/-- UTF-8, byte by byte: the continuation bytes still owed, the bounds of the next
one and the value so far. -/
def decodeUtf8From : Nat → Nat → Nat → Nat → Bytes → Option Str
  | 0, _, _, _, [] => some []
  | _ + 1, _, _, _, [] => none
  | 0, _, _, _, b :: rest =>
      let b := b.toNat
      if b < 0x80 then (decodeUtf8From 0 0 0 0 rest).map (Fin.ofNat _ b :: ·)
      else if 0xC2 ≤ b ∧ b ≤ 0xDF then decodeUtf8From 1 0x80 0xBF (b - 0xC0) rest
      else if b = 0xE0 then decodeUtf8From 2 0xA0 0xBF 0 rest
      -- A surrogate passes: after 0xED come all continuation bytes.
      else if 0xE1 ≤ b ∧ b ≤ 0xEF then decodeUtf8From 2 0x80 0xBF (b - 0xE0) rest
      else if b = 0xF0 then decodeUtf8From 3 0x90 0xBF 0 rest
      else if 0xF1 ≤ b ∧ b ≤ 0xF3 then decodeUtf8From 3 0x80 0xBF (b - 0xF0) rest
      else if b = 0xF4 then decodeUtf8From 3 0x80 0x8F 4 rest
      else none
  | owed + 1, low, high, value, b :: rest =>
      let b := b.toNat
      if low ≤ b ∧ b ≤ high then
        let value := value * 0x40 + (b - 0x80)
        if owed = 0 then (decodeUtf8From 0 0 0 0 rest).map (Fin.ofNat _ value :: ·)
        else decodeUtf8From owed 0x80 0xBF value rest
      else none

def decodeUtf8 (b : Bytes) : Option Str := decodeUtf8From 0 0 0 0 b

def utf16Units (bigEndian : Bool) : Bytes → Option Str
  | [] => some []
  | [_] => none
  | a :: b :: rest =>
      let unit := if bigEndian then a.toNat * 0x100 + b.toNat else b.toNat * 0x100 + a.toNat
      (utf16Units bigEndian rest).map (Fin.ofNat _ unit :: ·)

def decodeUtf16 (bigEndian : Bool) (b : Bytes) : Option Str :=
  (utf16Units bigEndian b).map joinPairs

def decodeUtf32 (bigEndian : Bool) : Bytes → Option Str
  | [] => some []
  | a :: b :: c :: d :: rest =>
      let value := if bigEndian then
          ((a.toNat * 0x100 + b.toNat) * 0x100 + c.toNat) * 0x100 + d.toNat
        else ((d.toNat * 0x100 + c.toNat) * 0x100 + b.toNat) * 0x100 + a.toNat
      if value < 0x110000 then (decodeUtf32 bigEndian rest).map (Fin.ofNat _ value :: ·) else none
  | _ => none

inductive Encoding where
  | utf8
  | utf8Sig
  | utf16
  | utf16Le
  | utf16Be
  | utf32
  | utf32Le
  | utf32Be
  deriving DecidableEq, Repr

/-- `bytes.decode(encoding, "surrogatepass")`; `none` is a `UnicodeDecodeError`.
The encodings without an order of bytes take it from the mark they begin with. -/
def decode : Encoding → Bytes → Option Str
  | .utf8, b => decodeUtf8 b
  | .utf8Sig, b => decodeUtf8 (if [0xEF, 0xBB, 0xBF].isPrefixOf b then b.drop 3 else b)
  | .utf16, b =>
      if [0xFE, 0xFF].isPrefixOf b then decodeUtf16 true (b.drop 2)
      else decodeUtf16 false (if [0xFF, 0xFE].isPrefixOf b then b.drop 2 else b)
  | .utf16Le, b => decodeUtf16 false b
  | .utf16Be, b => decodeUtf16 true b
  | .utf32, b =>
      if [0, 0, 0xFE, 0xFF].isPrefixOf b then decodeUtf32 true (b.drop 4)
      else decodeUtf32 false (if [0xFF, 0xFE, 0, 0].isPrefixOf b then b.drop 4 else b)
  | .utf32Le, b => decodeUtf32 false b
  | .utf32Be, b => decodeUtf32 true b

/-- ASCII text as bytes. -/
def asciiBytes (s : Str) : Bytes := s.map fun c => .ofNat c.val

theorem isAscii_append {s t : Str} : isAscii (s ++ t) = (isAscii s && isAscii t) := List.all_append

theorem decodeUtf8_ascii {s : Str} (hs : isAscii s = true) :
    decodeUtf8 (asciiBytes s) = some s := by
  unfold decodeUtf8
  induction s with
  | nil => rfl
  | cons c s ih =>
      obtain ⟨hc, hrest⟩ := (Bool.and_eq_true _ _).mp hs
      have hlt : c.val < 128 := of_decide_eq_true hc
      have hbyte : (UInt8.ofNat c.val).toNat = c.val := UInt8.toNat_ofNat_of_lt' (Nat.lt_trans hlt (by decide))
      have hpoint : Fin.ofNat 0x110000 c.val = c := Fin.ofNat_val_eq_self c
      simp only [asciiBytes, List.map_cons, decodeUtf8From, hbyte, hlt, if_true, hpoint]
      rw [← asciiBytes, ih hrest]
      rfl

theorem encode_ascii {s : Str} (hs : isAscii s = true) : encode s = some (asciiBytes s) := by
  have hascii (c : CodePoint) (hc : c ∈ s) : c.val < 128 :=
    of_decide_eq_true (List.all_eq_true.mp hs c hc)
  have hnone : ¬ (s.any fun c => isHigh c || isLow c) = true := by
    intro hany
    obtain ⟨c, hc, hsurrogate⟩ := List.any_eq_true.mp hany
    have hlt := hascii c hc
    rw [Bool.or_eq_true, isHigh_iff, isLow_iff] at hsurrogate
    omega
  have hbytes : s.flatMap utf8Bytes = s.flatMap fun c => [UInt8.ofNat c.val] :=
    List.flatMap_congr fun c hc => if_pos (hascii c hc)
  rw [encode, if_neg hnone, hbytes, ← List.map_eq_flatMap]
  rfl

end Socle.PythonText
