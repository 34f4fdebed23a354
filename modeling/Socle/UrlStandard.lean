import Mathlib.Data.List.TakeWhile

/-!
The host of an absolute URL, as the states of the basic URL parser of the URL
Standard find it.  The URLs have a special scheme other than `file`.  The host parser
(percent-decoding, domain to ASCII, addresses) is a parameter.
-/

namespace Socle.UrlStandard

abbrev Text := List Nat

local instance lawfulText : LawfulBEq Text := inferInstance

def isAlpha (c : Nat) : Bool := (decide (65 ≤ c) && decide (c ≤ 90)) || (decide (97 ≤ c) && decide (c ≤ 122))

def isDigit (c : Nat) : Bool := decide (48 ≤ c) && decide (c ≤ 57)

def toLower (c : Nat) : Nat := if 65 ≤ c ∧ c ≤ 90 then c + 32 else c

def isSchemeChar (c : Nat) : Bool := isAlpha c || isDigit c || c == 43 || c == 45 || c == 46

def isTabOrNewline (c : Nat) : Bool := c == 9 || c == 10 || c == 13

def isSlash (c : Nat) : Bool := c == 47 || c == 92

/-- What ends the authority of a special URL. -/
def endsAuthority (c : Nat) : Bool := isSlash c || c == 63 || c == 35

/-- A port is a number of at most sixteen bits; an empty one is none. -/
def portNumber (digits : Text) : Nat := digits.foldl (fun value c => value * 10 + (c - 48)) 0

/-- `ftp`, `http`, `https`, `ws` and `wss`. -/
def specialSchemes : List Text :=
  [[102, 116, 112], [104, 116, 116, 112], [104, 116, 116, 112, 115], [119, 115], [119, 115, 115]]

section States

variable (parseHost : Text → Option Text)

/-- Port state. -/
def portState (host buffer : Text) : Text → Option Text
  | [] => if portNumber buffer ≤ 65535 then some host else none
  | c :: rest =>
      if isDigit c then portState host (buffer ++ [c]) rest
      else if endsAuthority c then if portNumber buffer ≤ 65535 then some host else none
      else none

/-- The end of the host state: an empty host is a failure. -/
def endHost (buffer : Text) : Option Text := if buffer = [] then none else parseHost buffer

/-- Host state. -/
def hostState (insideBrackets : Bool) (buffer : Text) : Text → Option Text
  | [] => endHost parseHost buffer
  | c :: rest =>
      if c = 58 ∧ insideBrackets = false then
        (endHost parseHost buffer).bind fun host => portState host [] rest
      else if endsAuthority c then endHost parseHost buffer
      else hostState (if c = 91 then true else if c = 93 then false else insideBrackets)
        (buffer ++ [c]) rest

/-- The end of the authority state: the buffer is read again as the host. -/
def endAuthority (atSignSeen : Bool) (buffer input : Text) : Option Text :=
  if atSignSeen ∧ buffer = [] then none else hostState parseHost false [] (buffer ++ input)

/-- Authority state. -/
def authorityState (atSignSeen : Bool) (buffer : Text) : Text → Option Text
  | [] => endAuthority parseHost atSignSeen buffer []
  | c :: rest =>
      if c = 64 then authorityState true [] rest
      else if endsAuthority c then endAuthority parseHost atSignSeen buffer (c :: rest)
      else authorityState atSignSeen (buffer ++ [c]) rest

/-- Special authority slashes state and special authority ignore slashes state. -/
def authoritySlashesState (input : Text) : Option Text :=
  authorityState parseHost false [] (input.dropWhile isSlash)

/-- Scheme state. -/
def schemeState (buffer : Text) : Text → Option Text
  | [] => none
  | c :: rest =>
      if isSchemeChar c then schemeState (buffer ++ [toLower c]) rest
      else if c = 58 ∧ buffer ∈ specialSchemes then authoritySlashesState parseHost rest
      else none

/-- Scheme start state. -/
def schemeStartState : Text → Option Text
  | [] => none
  | c :: rest => if isAlpha c then schemeState parseHost [toLower c] rest else none

def trim (url : Text) : Text :=
  ((url.dropWhile fun c => decide (c ≤ 32)).reverse.dropWhile fun c => decide (c ≤ 32)).reverse

/-- The host of a URL, or `none` when the parser fails. -/
def hostOf (url : Text) : Option Text :=
  schemeStartState parseHost ((trim url).filter fun c => !isTabOrNewline c)

end States

/-! ### The host read off the text -/

/-- What follows the last at sign. -/
def afterAt : Text → Text
  | [] => []
  | c :: rest => if 64 ∈ rest then afterAt rest else if c = 64 then rest else c :: rest

/-- The host and, after a colon outside brackets, the port. -/
def splitPort (insideBrackets : Bool) : Text → Text × Option Text
  | [] => ([], none)
  | c :: rest =>
      if c = 58 ∧ insideBrackets = false then ([], some rest)
      else
        let out := splitPort (if c = 91 then true else if c = 93 then false else insideBrackets) rest
        (c :: out.1, out.2)

def PortValid (port : Option Text) : Prop :=
  ∀ digits ∈ port, digits.all isDigit = true ∧ portNumber digits ≤ 65535

instance (port : Option Text) : Decidable (PortValid port) :=
  inferInstanceAs (Decidable (∀ digits ∈ port, _))

/-- The host of an authority. -/
def readHost (parseHost : Text → Option Text) (authority : Text) : Option Text :=
  let parts := splitPort false (afterAt authority)
  if PortValid parts.2 then endHost parseHost parts.1 else none

/-- What stands for the authority in what follows the scheme and the slashes. -/
def authorityOf (rest : Text) : Text :=
  ((rest.filter fun c => !isTabOrNewline c).dropWhile isSlash).takeWhile fun c => !endsAuthority c

section Reading

variable {parseHost : Text → Option Text}

/-- The text is over, or goes on with what ends an authority. -/
def Ends (tail : Text) : Prop := ∀ c ∈ tail.head?, endsAuthority c = true

/-- No character of the text ends an authority. -/
def Within (text : Text) : Prop := ∀ c ∈ text, endsAuthority c = false

theorem not_digit_of_ends {c : Nat} (h : endsAuthority c = true) : isDigit c = false := by
  simp only [endsAuthority, isSlash, Bool.or_eq_true, beq_iff_eq] at h
  simp only [isDigit, Bool.and_eq_false_iff, decide_eq_false_iff_not]
  omega

theorem ne_colon_of_ends {c : Nat} (h : endsAuthority c = true) : c ≠ 58 := by
  rintro rfl
  cases h

theorem portValid_some {digits : Text} :
    PortValid (some digits) ↔ digits.all isDigit = true ∧ portNumber digits ≤ 65535 := by
  simp [PortValid]

theorem portState_append (host buffer : Text) {port tail : Text} (hport : Within port)
    (htail : Ends tail) :
    portState host buffer (port ++ tail) =
      if port.all isDigit = true ∧ portNumber (buffer ++ port) ≤ 65535 then some host else none := by
  induction port generalizing buffer with
  | nil =>
      cases tail with
      | nil => simp [portState]
      | cons c rest =>
          have hends := htail c rfl
          simp [portState, hends, not_digit_of_ends hends]
  | cons c port ih =>
      have hin : endsAuthority c = false := hport c List.mem_cons_self
      have hrest := ih (buffer ++ [c]) fun d hd => hport d (List.mem_cons_of_mem _ hd)
      rw [List.cons_append, portState]
      cases hdigit : isDigit c with
      | true =>
          rw [if_pos rfl, hrest, List.append_assoc]
          simp [hdigit]
      | false => simp [hdigit, hin]

theorem hostState_append (insideBrackets : Bool) (buffer : Text) {text tail : Text}
    (htext : Within text) (htail : Ends tail) :
    hostState parseHost insideBrackets buffer (text ++ tail) =
      if PortValid (splitPort insideBrackets text).2 then
        endHost parseHost (buffer ++ (splitPort insideBrackets text).1)
      else none := by
  induction text generalizing insideBrackets buffer with
  | nil =>
      rw [splitPort, if_pos (by nofun), List.append_nil]
      cases tail with
      | nil => rfl
      | cons c rest =>
          have hends := htail c rfl
          rw [List.nil_append, hostState, if_neg fun h => ne_colon_of_ends hends h.1, if_pos hends]
  | cons c text ih =>
      have hin : endsAuthority c = false := htext c List.mem_cons_self
      have hrest : Within text := fun d hd => htext d (List.mem_cons_of_mem _ hd)
      rw [List.cons_append, hostState, splitPort]
      split
      · rw [List.append_nil]
        simp only [portState_append _ _ hrest htail, List.nil_append]
        by_cases hport : text.all isDigit = true ∧ portNumber text ≤ 65535
        · rw [if_pos (portValid_some.mpr hport)]
          simp [hport]
        · rw [if_neg (portValid_some.not.mpr hport)]
          simp only [if_neg hport, Option.bind_fun_none]
      · rw [if_neg (by rw [hin]; nofun), ih _ _ hrest, List.append_assoc]
        rfl

theorem authorityState_append (atSignSeen : Bool) (buffer : Text) {text tail : Text}
    (htext : Within text) (htail : Ends tail) :
    authorityState parseHost atSignSeen buffer (text ++ tail) =
      endAuthority parseHost (atSignSeen || decide (64 ∈ text))
        (if 64 ∈ text then afterAt text else buffer ++ text) tail := by
  induction text generalizing atSignSeen buffer with
  | nil =>
      rw [List.append_nil, if_neg List.not_mem_nil, List.nil_append]
      cases tail with
      | nil => simp [authorityState]
      | cons c rest =>
          have hends := htail c rfl
          have hat : c ≠ 64 := by
            rintro rfl
            cases hends
          simp [authorityState, hat, hends]
  | cons c text ih =>
      have hin : endsAuthority c = false := htext c List.mem_cons_self
      have hrest : Within text := fun d hd => htext d (List.mem_cons_of_mem _ hd)
      rw [List.cons_append, authorityState, afterAt]
      by_cases hat : c = 64
      · subst hat
        rw [if_pos rfl, ih _ _ hrest]
        by_cases hmore : 64 ∈ text <;> simp [hmore]
      · rw [if_neg hat, if_neg (by rw [hin]; nofun), ih _ _ hrest]
        by_cases hmore : 64 ∈ text
        · simp [hmore]
        · simp [hmore, Ne.symm hat]

theorem within_afterAt {text : Text} (h : Within text) : Within (afterAt text) := by
  induction text with
  | nil => exact h
  | cons c rest ih =>
      have hrest : Within rest := fun d hd => h d (List.mem_cons_of_mem _ hd)
      rw [afterAt]
      split
      · exact ih hrest
      · split
        · exact hrest
        · exact h

theorem afterAt_eq_self {text : Text} (h : 64 ∉ text) : afterAt text = text := by
  cases text with
  | nil => rfl
  | cons c rest =>
      obtain ⟨hc, hrest⟩ := not_or.mp (List.mem_cons.not.mp h)
      rw [afterAt, if_neg hrest, if_neg (Ne.symm hc)]

theorem authorityState_eq_readHost {text tail : Text} (htext : Within text) (htail : Ends tail) :
    authorityState parseHost false [] (text ++ tail) = readHost parseHost text := by
  have hread : (if 64 ∈ text then afterAt text else [] ++ text) = afterAt text := by
    split
    · rfl
    · rename_i hnone
      exact (afterAt_eq_self hnone).symm
  rw [authorityState_append _ _ htext htail, hread, endAuthority]
  split
  · rename_i hempty
    simp [readHost, hempty.2, splitPort, endHost]
  · rw [hostState_append _ _ (within_afterAt htext) htail]
    rfl

theorem trim_append {c : Nat} (hc : 32 < c) (text tail : Text) :
    ∃ tail', trim (c :: (text ++ 47 :: tail)) = c :: (text ++ 47 :: tail') := by
  have hfront : ((c :: (text ++ 47 :: tail)).dropWhile fun c => decide (c ≤ 32)) =
      c :: (text ++ 47 :: tail) :=
    List.dropWhile_cons_of_neg (by simpa using hc)
  have hback : (c :: (text ++ 47 :: tail)).reverse = tail.reverse ++ 47 :: (c :: text).reverse := by
    simp
  rw [trim, hfront, hback, List.dropWhile_append]
  split
  · refine ⟨[], ?_⟩
    rw [List.dropWhile_cons_of_neg (by decide)]
    simp
  · refine ⟨(tail.reverse.dropWhile fun c => decide (c ≤ 32)).reverse, ?_⟩
    simp

theorem schemeState_append (buffer : Text) {scheme rest : Text}
    (hscheme : scheme.all isSchemeChar = true)
    (hspecial : buffer ++ scheme.map toLower ∈ specialSchemes) :
    schemeState parseHost buffer (scheme ++ 58 :: rest) = authoritySlashesState parseHost rest := by
  induction scheme generalizing buffer with
  | nil =>
      rw [List.map_nil, List.append_nil] at hspecial
      rw [List.nil_append, schemeState, if_neg (by decide), if_pos ⟨rfl, hspecial⟩]
  | cons c scheme ih =>
      obtain ⟨hc, hrest⟩ := (Bool.and_eq_true _ _).mp hscheme
      rw [List.cons_append, schemeState, if_pos hc]
      exact ih _ hrest (by simpa using hspecial)

theorem split_authority (text tail : Text) :
    ∃ rest, text ++ 47 :: tail = (text.takeWhile fun c => !endsAuthority c) ++ rest ∧ Ends rest := by
  induction text with
  | nil => exact ⟨47 :: tail, rfl, by rintro c ⟨⟩; decide⟩
  | cons c text ih =>
      cases hc : endsAuthority c with
      | true =>
          refine ⟨c :: (text ++ 47 :: tail), ?_, by rintro d ⟨⟩; exact hc⟩
          rw [List.takeWhile_cons_of_neg (by simp [hc])]
          rfl
      | false =>
          obtain ⟨rest, hsplit, hends⟩ := ih
          refine ⟨rest, ?_, hends⟩
          rw [List.takeWhile_cons_of_pos (by simp [hc]), List.cons_append, hsplit]
          rfl

theorem authoritySlashes_append {text : Text} (htext : ∃ c ∈ text, isSlash c = false)
    (tail : Text) : authoritySlashesState parseHost (text ++ 47 :: tail) =
      readHost parseHost ((text.dropWhile isSlash).takeWhile fun c => !endsAuthority c) := by
  have hne : text.dropWhile isSlash ≠ [] := by
    obtain ⟨c, hc, hslash⟩ := htext
    intro hnil
    rw [List.dropWhile_eq_nil_iff.mp hnil c hc] at hslash
    cases hslash
  have hdrop : (text ++ 47 :: tail).dropWhile isSlash = text.dropWhile isSlash ++ 47 :: tail := by
    rw [List.dropWhile_append, if_neg (by simpa using hne)]
  obtain ⟨rest, hsplit, hends⟩ := split_authority (text.dropWhile isSlash) tail
  rw [authoritySlashesState, hdrop, hsplit]
  exact authorityState_eq_readHost (fun c hc => by simpa using List.mem_takeWhile_imp hc) hends

theorem tabOrNewline_of_schemeChar {c : Nat} (h : isSchemeChar c = true) :
    isTabOrNewline c = false := by
  simp only [isSchemeChar, isAlpha, isDigit, Bool.or_eq_true, Bool.and_eq_true, decide_eq_true_eq,
    beq_iff_eq] at h
  simp only [isTabOrNewline, Bool.or_eq_false_iff, beq_eq_false_iff_ne]
  omega

theorem hostOf_eq_readHost {scheme text : Text} (hscheme : scheme ∈ specialSchemes)
    (htext : ∃ c ∈ text, isTabOrNewline c = false ∧ isSlash c = false) (tail : Text) :
    hostOf parseHost (scheme ++ 58 :: 47 :: 47 :: (text ++ 47 :: tail)) =
      readHost parseHost (authorityOf text) := by
  have hspecial : ∃ c rest, scheme = c :: rest ∧ isAlpha c = true ∧ 32 < c ∧
      rest.all isSchemeChar = true ∧ [toLower c] ++ rest.map toLower ∈ specialSchemes := by
    have hall : ∀ scheme ∈ specialSchemes, ∃ c ∈ scheme.head?, isAlpha c = true ∧ 32 < c ∧
        scheme.tail.all isSchemeChar = true ∧
          [toLower c] ++ scheme.tail.map toLower ∈ specialSchemes := by
      decide
    obtain ⟨c, hc, hrest⟩ := hall scheme hscheme
    cases scheme with
    | nil => cases hc
    | cons d rest =>
        cases hc
        exact ⟨c, rest, rfl, hrest⟩
  obtain ⟨c, rest, rfl, halpha, hspace, hrest, hname⟩ := hspecial
  have hshape : c :: rest ++ 58 :: 47 :: 47 :: (text ++ 47 :: tail) =
      c :: ((rest ++ 58 :: 47 :: 47 :: text) ++ 47 :: tail) := by
    simp
  obtain ⟨tail', htrim⟩ := trim_append hspace (rest ++ 58 :: 47 :: 47 :: text) tail
  have hclean : (rest.filter fun c => !isTabOrNewline c) = rest :=
    List.filter_eq_self.mpr fun d hd => by
      rw [tabOrNewline_of_schemeChar (List.all_eq_true.mp hrest d hd)]
      rfl
  have hfirst : isTabOrNewline c = false :=
    tabOrNewline_of_schemeChar (by simp [isSchemeChar, halpha])
  have hfiltered : ∃ c ∈ text.filter fun c => !isTabOrNewline c, isSlash c = false := by
    obtain ⟨d, hd, htab, hslash⟩ := htext
    exact ⟨d, List.mem_filter.mpr ⟨hd, by simp [htab]⟩, hslash⟩
  have hurl : ((c :: ((rest ++ 58 :: 47 :: 47 :: text) ++ 47 :: tail')).filter
      fun c => !isTabOrNewline c) =
        c :: (rest ++ 58 :: 47 :: 47 :: ((text.filter fun c => !isTabOrNewline c) ++
          47 :: tail'.filter fun c => !isTabOrNewline c)) := by
    rw [List.filter_cons_of_pos (by simp [hfirst]), List.append_assoc, List.filter_append, hclean]
    simp [List.filter_append, isTabOrNewline]
  rw [hostOf, hshape, htrim, hurl, schemeStartState, if_pos halpha,
    schemeState_append _ hrest hname]
  exact authoritySlashes_append hfiltered _

end Reading

end Socle.UrlStandard
