import Mathlib.Data.List.Nodup
import Mathlib.Data.Nat.Digits.Defs
import Socle.PythonText

/-!
Python's `json`: `dumps` with compact separators and ASCII output, and `loads` of
bytes, both with the limits of the interpreter on nesting and on the digits of an
integer.  Numbers that are not integers are left to `float`.
-/

namespace Socle.PythonJson

open Socle.PythonText

/-- The values of `float` over the finite ones. -/
inductive PyFloat (F : Type) where
  | finite (x : F)
  | nan
  | infinity
  | negInfinity
  deriving DecidableEq

inductive Json (F : Type) where
  | null
  | bool (b : Bool)
  | int (i : Int)
  | float (x : PyFloat F)
  | str (s : Str)
  | list (items : List (Json F))
  | dict (entries : List (Str × Json F))

variable {F : Type}

/-- A malformed text or too many digits is a `ValueError`. -/
inductive Failure where
  | valueError
  | recursionError
  deriving DecidableEq, Repr

/-- `sys.get_int_max_str_digits()`, by default. -/
def maxStrDigits : Nat := 4300

section Dict

variable {α : Type}

/-- `d[key] = value`: an existing key keeps its place. -/
def setItem (key : Str) (value : α) : List (Str × α) → List (Str × α)
  | [] => [(key, value)]
  | entry :: rest =>
      if entry.1 = key then (key, value) :: rest else entry :: setItem key value rest

def getItem (key : Str) (entries : List (Str × α)) : Option α :=
  (entries.find? fun entry => entry.1 == key).map fun entry => entry.2

def delItem (key : Str) (entries : List (Str × α)) : List (Str × α) :=
  entries.filter fun entry => entry.1 != key

variable {key : Str} {value : α} {entries : List (Str × α)}

theorem setItem_fresh (hkey : key ∉ entries.map Prod.fst) :
    setItem key value entries = entries ++ [(key, value)] := by
  induction entries with
  | nil => rfl
  | cons entry entries ih =>
      obtain ⟨hne, hrest⟩ := not_or.mp (List.mem_cons.not.mp hkey)
      rw [setItem, if_neg (Ne.symm hne), ih hrest]
      rfl

theorem keys_setItem (hkey : key ∈ entries.map Prod.fst) :
    (setItem key value entries).map Prod.fst = entries.map Prod.fst := by
  induction entries with
  | nil => cases hkey
  | cons entry entries ih =>
      rw [setItem]
      split
      · rename_i hentry
        rw [List.map_cons, List.map_cons, hentry]
      · rename_i hentry
        rcases List.mem_cons.mp hkey with rfl | hrest
        · exact absurd rfl hentry
        · rw [List.map_cons, List.map_cons, ih hrest]

theorem nodup_setItem (hkeys : (entries.map Prod.fst).Nodup) :
    ((setItem key value entries).map Prod.fst).Nodup := by
  by_cases hkey : key ∈ entries.map Prod.fst
  · rw [keys_setItem hkey]
    exact hkeys
  · rw [setItem_fresh hkey, List.map_append]
    exact hkeys.append (List.nodup_singleton key) (List.disjoint_singleton.mpr hkey)

theorem getItem_setItem : getItem key (setItem key value entries) = some value := by
  induction entries with
  | nil => simp [setItem, getItem]
  | cons entry entries ih =>
      rw [setItem]
      split
      · simp [getItem]
      · rename_i hentry
        rw [getItem, List.find?_cons_of_neg (by simpa using hentry)]
        exact ih

theorem getItem_append (key : Str) (entries rest : List (Str × α)) :
    getItem key (entries ++ rest) = (getItem key entries).or (getItem key rest) := by
  rw [getItem, List.find?_append, getItem, getItem]
  cases entries.find? fun entry => entry.1 == key with
  | none => rfl
  | some entry => rfl

theorem getItem_setItem_of_ne {other : Str} (h : other ≠ key) :
    getItem other (setItem key value entries) = getItem other entries := by
  induction entries with
  | nil => simp [setItem, getItem, Ne.symm h]
  | cons entry entries ih =>
      rw [setItem]
      split
      · rename_i hentry
        rw [getItem, getItem, List.find?_cons_of_neg (by simpa using Ne.symm h),
          List.find?_cons_of_neg (by simpa [hentry] using Ne.symm h)]
      · unfold getItem at ih ⊢
        rw [List.find?_cons, List.find?_cons]
        split
        · rfl
        · exact ih

theorem delItem_setItem : delItem key (setItem key value entries) = delItem key entries := by
  induction entries with
  | nil => simp [setItem, delItem]
  | cons entry entries ih =>
      rw [setItem]
      split
      · rename_i hentry
        simp [delItem, hentry]
      · rename_i hentry
        simp only [delItem] at ih ⊢
        rw [List.filter_cons, List.filter_cons, ih]

theorem mem_setItem {entry : Str × α} (h : entry ∈ setItem key value entries) :
    entry ∈ entries ∨ entry = (key, value) := by
  induction entries with
  | nil => exact .inr (List.mem_singleton.mp h)
  | cons first entries ih =>
      rw [setItem] at h
      split at h
      · rcases List.mem_cons.mp h with rfl | hrest
        · exact .inr rfl
        · exact .inl (List.mem_cons_of_mem _ hrest)
      · rcases List.mem_cons.mp h with rfl | hrest
        · exact .inl List.mem_cons_self
        · rcases ih hrest with hold | hnew
          · exact .inl (List.mem_cons_of_mem _ hold)
          · exact .inr hnew

theorem mem_setItem_self : (key, value) ∈ setItem key value entries := by
  induction entries with
  | nil => exact List.mem_cons_self
  | cons entry entries ih =>
      rw [setItem]
      split
      · exact List.mem_cons_self
      · exact List.mem_cons_of_mem _ ih

theorem mem_setItem_cases (hkeys : (entries.map Prod.fst).Nodup) {entry : Str × α}
    (h : entry ∈ setItem key value entries) :
    entry = (key, value) ∨ entry ∈ delItem key entries := by
  by_cases hkey : entry.1 = key
  · exact .inl (List.inj_on_of_nodup_map (nodup_setItem hkeys) h mem_setItem_self hkey)
  · have hkept : entry ∈ delItem key (setItem key value entries) :=
      List.mem_filter.mpr ⟨h, by simpa using hkey⟩
    rw [delItem_setItem] at hkept
    exact .inr hkept

end Dict

/-! ### Numbers -/

def isDigit (c : CodePoint) : Bool := 48 ≤ c.val && c.val ≤ 57

def digitsValue (digits : Str) : Nat := digits.foldl (fun n c => n * 10 + (c.val - 48)) 0

/-- The decimal digits of a natural number. -/
def decimal (n : Nat) : Str :=
  if n = 0 then [48] else ((Nat.digits 10 n).map fun d => Fin.ofNat _ (48 + d)).reverse

def scanWhole : Str → Option (Str × Str)
  | [] => none
  | c :: rest =>
      if c = 48 then some ([c], rest)
      else if isDigit c then some (c :: rest.takeWhile isDigit, rest.dropWhile isDigit)
      else none

def scanFraction : Str → Str × Str
  | c :: d :: rest =>
      if c = 46 ∧ isDigit d then (c :: d :: rest.takeWhile isDigit, rest.dropWhile isDigit)
      else ([], c :: d :: rest)
  | s => ([], s)

/-- One character of a set, when the text begins with it. -/
def scanOne (allowed : CodePoint → Bool) : Str → Str × Str
  | c :: rest => if allowed c then ([c], rest) else ([], c :: rest)
  | [] => ([], [])

/-- `e`, a sign and digits; without digits, nothing is read. -/
def scanExponent (s : Str) : Str × Str :=
  let (mark, afterMark) := scanOne (fun c => c == 101 || c == 69) s
  let (sign, afterSign) := scanOne (fun c => c == 43 || c == 45) afterMark
  let digits := afterSign.takeWhile isDigit
  if mark ≠ [] ∧ digits ≠ [] then (mark ++ sign ++ digits, afterSign.dropWhile isDigit)
  else ([], s)

/-- The digits before the fraction: a zero alone, or digits from a nonzero one on. -/
def IsWhole (whole : Str) : Prop :=
  whole = [48] ∨ ∃ c rest, whole = c :: rest ∧ c ≠ 48 ∧ ∀ d ∈ whole, isDigit d = true

def IsFraction (fraction : Str) : Prop :=
  ∃ d rest, fraction = 46 :: d :: rest ∧ ∀ x ∈ d :: rest, isDigit x = true

def IsExponent (exponent : Str) : Prop :=
  ∃ sign d rest, exponent = 101 :: (sign ++ d :: rest) ∧
    (sign = [] ∨ sign = [43] ∨ sign = [45]) ∧ ∀ x ∈ d :: rest, isDigit x = true

/-- A decimal literal. -/
structure Literal where
  sign : Str
  whole : Str
  fraction : Str
  exponent : Str
  isSign : sign = [] ∨ sign = [45]
  isWhole : IsWhole whole
  isFraction : fraction = [] ∨ IsFraction fraction
  isExponent : exponent = [] ∨ IsExponent exponent

def Literal.text (l : Literal) : Str := l.sign ++ (l.whole ++ (l.fraction ++ l.exponent))

/-- `float.__repr__` of the finite floats and `float` of a text: the first is a
decimal literal that is not one of an integer, and the second reads it back. -/
structure Floats (F : Type) where
  repr : F → Literal
  ofText : Str → PyFloat F
  repr_float : ∀ x, (repr x).fraction ≠ [] ∨ (repr x).exponent ≠ []
  ofText_repr : ∀ x, ofText (repr x).text = .finite x

def scanNumber (floats : Floats F) (s : Str) : Except Failure (Json F × Str) :=
  let (sign, afterSign) := scanOne (fun c => c == 45) s
  match scanWhole afterSign with
  | none => .error .valueError
  | some (whole, afterWhole) =>
      let (fraction, afterFraction) := scanFraction afterWhole
      let (exponent, rest) := scanExponent afterFraction
      if fraction = [] ∧ exponent = [] then
        if whole.length ≤ maxStrDigits then
          .ok (.int (if sign = [] then digitsValue whole else -digitsValue whole), rest)
        else .error .valueError
      else .ok (.float (floats.ofText (sign ++ (whole ++ (fraction ++ exponent)))), rest)

/-! ### Strings -/

def hexDigit (v : Nat) : CodePoint := Fin.ofNat _ (if v < 10 then 48 + v else 87 + v)

def hexValue (c : CodePoint) : Option Nat :=
  let n := c.val
  if 48 ≤ n ∧ n ≤ 57 then some (n - 48)
  else if 97 ≤ n ∧ n ≤ 102 then some (n - 87)
  else if 65 ≤ n ∧ n ≤ 70 then some (n - 55)
  else none

def unicodeEscape (c : CodePoint) : Str :=
  let n := c.val
  [92, 117, hexDigit (n / 4096 % 16), hexDigit (n / 256 % 16), hexDigit (n / 16 % 16),
    hexDigit (n % 16)]

/-- The escapes with a letter of their own. -/
def shortEscapes : List (CodePoint × CodePoint) :=
  [(34, 34), (92, 92), (8, 98), (12, 102), (10, 110), (13, 114), (9, 116)]

/-- `py_encode_basestring_ascii`, one character. -/
def escape (c : CodePoint) : Str :=
  match shortEscapes.find? fun e => e.1 == c with
  | some e => [92, e.2]
  | none =>
      if 32 ≤ c.val ∧ c.val ≤ 126 then [c]
      else if c.val < 0x10000 then unicodeEscape c
      else unicodeEscape (highOf c) ++ unicodeEscape (lowOf c)

def stringText (s : Str) : Str := 34 :: (s.flatMap escape ++ [34])

/-- A character of a string: written as such, or as a Unicode escape. -/
inductive Item where
  | plain (c : CodePoint)
  | escaped (c : CodePoint)
  deriving DecidableEq

def Item.point : Item → CodePoint
  | .plain c => c
  | .escaped c => c

inductive Mode where
  | plain
  | escape
  | hex (missing : Nat) (value : Nat)

/-- `scanstring` after the opening quote, one character at a time. -/
def scanItems : Mode → Str → Except Failure (List Item × Str)
  | _, [] => .error .valueError
  | .plain, c :: rest =>
      if c = 34 then .ok ([], rest)
      else if c = 92 then scanItems .escape rest
      else if c.val < 32 then .error .valueError
      else (scanItems .plain rest).map fun out => (.plain c :: out.1, out.2)
  | .escape, c :: rest =>
      if c = 117 then scanItems (.hex 4 0) rest
      else
        -- A slash may be escaped too, although `dumps` does not do it.
        match ((47, 47) :: shortEscapes).find? fun e => e.2 == c with
        | some e => (scanItems .plain rest).map fun out => (.plain e.1 :: out.1, out.2)
        | none => .error .valueError
  | .hex missing value, c :: rest =>
      match hexValue c with
      | none => .error .valueError
      | some v =>
          let value := value * 16 + v
          if missing ≤ 1 then
            (scanItems .plain rest).map fun out => (.escaped (Fin.ofNat _ value) :: out.1, out.2)
          else scanItems (.hex (missing - 1) value) rest

/-- Two escapes that make a surrogate pair are one character. -/
def joinItems : List Item → Str
  | [] => []
  | [x] => [x.point]
  | .escaped c :: .escaped d :: rest =>
      if isHigh c && isLow d then joinPair c d :: joinItems rest
      else c :: joinItems (.escaped d :: rest)
  | x :: y :: rest => x.point :: joinItems (y :: rest)

def scanString (s : Str) : Except Failure (Str × Str) :=
  (scanItems .plain s).map fun out => (joinItems out.1, out.2)

/-! ### Values -/

def skipSpace (s : Str) : Str := s.dropWhile fun c => c == 32 || c == 9 || c == 10 || c == 13

def next : Str → Except Failure (CodePoint × Str)
  | [] => .error .valueError
  | c :: rest => .ok (c, rest)

section Containers

variable (scan : Str → Except Failure (Json F × Str))

/-- The loop of `_parse_array`.  Each turn reads a comma: the length of the text is
fuel enough. -/
def scanElements : Nat → Str → Except Failure (List (Json F) × Str)
  | 0, _ => .error .valueError
  | fuel + 1, s => do
      let (value, s) ← scan s
      let (c, s) ← next (skipSpace s)
      if c = 44 then
        let (values, s) ← scanElements fuel (skipSpace s)
        return (value :: values, s)
      else if c = 93 then
        return ([value], s)
      else
        throw .valueError

def scanArray (s : Str) : Except Failure (Json F × Str) := do
  let s := skipSpace s
  let (c, rest) ← next s
  if c = 93 then
    return (.list [], rest)
  else
    let (values, rest) ← scanElements scan s.length s
    return (.list values, rest)

/-- The loop of `_parse_object`. -/
def scanMembers : Nat → List (Str × Json F) → Str → Except Failure (List (Str × Json F) × Str)
  | 0, _, _ => .error .valueError
  | fuel + 1, entries, s => do
      let (c, s) ← next s
      if c ≠ 34 then
        throw .valueError
      let (key, s) ← scanString s
      let (c, s) ← next (skipSpace s)
      if c ≠ 58 then
        throw .valueError
      let (value, s) ← scan (skipSpace s)
      let entries := setItem key value entries
      let (c, s) ← next (skipSpace s)
      if c = 44 then
        scanMembers fuel entries (skipSpace s)
      else if c = 125 then
        return (entries, s)
      else
        throw .valueError

def scanObject (s : Str) : Except Failure (Json F × Str) := do
  let s := skipSpace s
  let (c, rest) ← next s
  if c = 125 then
    return (.dict [], rest)
  else
    let (entries, rest) ← scanMembers scan s.length [] s
    return (.dict entries, rest)

end Containers

def constants : List (Str × Json F) :=
  [(ofString "null", .null), (ofString "true", .bool true), (ofString "false", .bool false),
    (ofString "NaN", .float .nan), (ofString "Infinity", .float .infinity),
    (ofString "-Infinity", .float .negInfinity)]

def scanAtom (floats : Floats F) (s : Str) : Except Failure (Json F × Str) :=
  match constants.find? fun k => k.1.isPrefixOf s with
  | some k => .ok (k.2, s.drop k.1.length)
  | none => scanNumber floats s

/-- `scan_once`, with the levels of nesting that are left. -/
def scanOnce (floats : Floats F) : Nat → Str → Except Failure (Json F × Str)
  | _, [] => .error .valueError
  | depth, c :: rest =>
      if c = 34 then (scanString rest).map fun out => (.str out.1, out.2)
      else if c = 123 then
        match depth with
        | 0 => .error .recursionError
        | depth + 1 => scanObject (scanOnce floats depth) rest
      else if c = 91 then
        match depth with
        | 0 => .error .recursionError
        | depth + 1 => scanArray (scanOnce floats depth) rest
      else scanAtom floats (c :: rest)

def detectEncoding (b : Bytes) : Encoding :=
  if [0, 0, 0xFE, 0xFF].isPrefixOf b || [0xFF, 0xFE, 0, 0].isPrefixOf b then .utf32
  else if [0xFE, 0xFF].isPrefixOf b || [0xFF, 0xFE].isPrefixOf b then .utf16
  else if [0xEF, 0xBB, 0xBF].isPrefixOf b then .utf8Sig
  else
    match b with
    | [b₀, b₁] => if b₀ = 0 then .utf16Be else if b₁ = 0 then .utf16Le else .utf8
    | b₀ :: b₁ :: b₂ :: b₃ :: _ =>
        if b₀ = 0 then if b₁ ≠ 0 then .utf16Be else .utf32Be
        else if b₁ = 0 then if b₂ ≠ 0 ∨ b₃ ≠ 0 then .utf16Le else .utf32Le
        else .utf8
    | _ => .utf8

def loads (floats : Floats F) (depth : Nat) (b : Bytes) : Except Failure (Json F) := do
  let some s := decode (detectEncoding b) b | throw .valueError
  let (value, rest) ← scanOnce floats depth (skipSpace s)
  if skipSpace rest = [] then
    return value
  else
    throw .valueError

/-! ### `dumps` -/

def commaJoin : List Str → Str
  | [] => []
  | [text] => text
  | text :: rest => text ++ 44 :: commaJoin rest

def floatText (floats : Floats F) : PyFloat F → Str
  | .finite x => (floats.repr x).text
  | .nan => ofString "NaN"
  | .infinity => ofString "Infinity"
  | .negInfinity => ofString "-Infinity"

/-- `int.__repr__`, which refuses to write too many digits. -/
def intText (i : Int) : Except Failure Str :=
  let digits := decimal i.natAbs
  if digits.length ≤ maxStrDigits then .ok (if i < 0 then 45 :: digits else digits)
  else .error .valueError

/-- `json.dumps(value, separators=(",", ":"))`, with the levels of nesting that are
left. -/
def dumps (floats : Floats F) : Nat → Json F → Except Failure Str
  | _, .null => .ok (ofString "null")
  | _, .bool b => .ok (ofString (if b then "true" else "false"))
  | _, .int i => intText i
  | _, .float x => .ok (floatText floats x)
  | _, .str s => .ok (stringText s)
  | 0, .list _ => .error .recursionError
  | depth + 1, .list items => do
      let texts ← items.mapM (dumps floats depth)
      return 91 :: (commaJoin texts ++ [93])
  | 0, .dict _ => .error .recursionError
  | depth + 1, .dict entries => do
      let texts ← entries.mapM fun entry => do
        let text ← dumps floats depth entry.2
        return stringText entry.1 ++ 58 :: text
      return 123 :: (commaJoin texts ++ [125])

end Socle.PythonJson
