import Mathlib.Data.List.TakeWhile
import Socle.RouteGuards

/-!
The hosts that the origin check compares.  It cuts a host at the first colon, which
in an IPv6 literal is inside the brackets.
-/

namespace Socle.CsrfOrigin

open Socle.TokenExchange (PyStr py isSpace isSplitSpace)
open Socle.RouteGuards

/-! ### Addresses -/

def isHexDigit (c : Nat) : Bool :=
  isDigit c || (decide (65 ≤ c) && decide (c ≤ 70)) || (decide (97 ≤ c) && decide (c ≤ 102))

/-- A group of an IPv6 address. -/
def hextet (group : PyStr) : Bool :=
  !group.isEmpty && decide (group.length ≤ 4) && group.all isHexDigit

/-- A number from 0 to 255, without leading zeros. -/
def octet (text : PyStr) : Bool :=
  !text.isEmpty && decide (text.length ≤ 3) && text.all isDigit &&
    (decide (text.length = 1) || text.head? != some 48) &&
    decide (text.foldl (fun value c => value * 10 + (c - 48)) 0 ≤ 255)

def ipv4Address (text : PyStr) : Bool :=
  decide ((text.splitOn 46).length = 4) && (text.splitOn 46).all octet

/-- An IPv4 address at the end stands for two groups. -/
def groupsOf (address : PyStr) : List PyStr :=
  let parts := address.splitOn 58
  if (parts.getLastD []).contains 46 && ipv4Address (parts.getLastD []) then
    parts.dropLast ++ [py "0", py "0"]
  else parts

/-- The groups on one side of `::`. -/
def side (groups : List PyStr) : List PyStr := if groups = [[]] then [] else groups

/-- Eight groups, or fewer on the two sides of `::`, which leaves an empty group
inside. -/
def groupsValid (groups : List PyStr) : Bool :=
  (decide (groups.length = 8) && groups.all hextet) ||
    (List.range groups.length).any fun k =>
      decide (1 ≤ k) && decide (k + 1 < groups.length) && groups[k]? == some [] &&
        (side (groups.take k) ++ side (groups.drop (k + 1))).all hextet &&
        decide ((side (groups.take k) ++ side (groups.drop (k + 1))).length ≤ 7)

/-- `ipaddress.IPv6Address` on a text without a scope. -/
def ipv6Address (address : PyStr) : Bool := groupsValid (groupsOf address)

/-- `_check_bracketed_host` on what stands between the first brackets. -/
def bracketedNetloc (netloc : PyStr) : Bool :=
  let host := ((netloc.dropWhile fun c => c != 91).drop 1).takeWhile fun c => c != 93
  match host with
  | 118 :: rest =>
      let version := rest.takeWhile fun c => c != 46
      !version.isEmpty && version.all isHexDigit && decide (version.length + 1 < rest.length)
  | _ =>
      let address := host.takeWhile fun c => c != 37
      let scope := host.drop (address.length + 1)
      ipv6Address address &&
        (decide (address.length = host.length) || (!scope.isEmpty && !scope.contains 37))

example : ipv6Address (py "2001:db8::ff00:42:8329") = true := by decide
example : ipv6Address (py "::ffff:192.0.2.1") = true := by decide
example : ipv6Address (py "1::2::3") = false := by decide

theorem mem_side {groups : List PyStr} {g : PyStr} (hg : g ∈ groups) : g = [] ∨ g ∈ side groups := by
  unfold side
  split
  · rename_i h
    rw [h] at hg
    exact .inl (List.mem_singleton.mp hg)
  · exact .inr hg

theorem hextet_of_valid {groups : List PyStr} (h : groupsValid groups = true) {g : PyStr}
    (hg : g ∈ groups) : g = [] ∨ hextet g = true := by
  rcases (Bool.or_eq_true _ _).mp h with hfull | hshort
  · exact .inr (List.all_eq_true.mp ((Bool.and_eq_true _ _).mp hfull).2 g hg)
  · obtain ⟨k, -, hk⟩ := List.any_eq_true.mp hshort
    simp only [Bool.and_eq_true, decide_eq_true_eq, beq_iff_eq] at hk
    obtain ⟨⟨⟨⟨-, -⟩, hempty⟩, hall⟩, -⟩ := hk
    have hsides (hmem : g ∈ groups.take k ∨ g ∈ groups.drop (k + 1)) : g = [] ∨ hextet g = true := by
      rcases hmem with hbefore | hafter
      · refine (mem_side hbefore).imp id fun hside => ?_
        exact List.all_eq_true.mp hall g (List.mem_append_left _ hside)
      · refine (mem_side hafter).imp id fun hside => ?_
        exact List.all_eq_true.mp hall g (List.mem_append_right _ hside)
    obtain ⟨i, hi⟩ := List.mem_iff_getElem?.mp hg
    rcases Nat.lt_trichotomy i k with hlt | rfl | hgt
    · exact hsides (.inl (List.mem_iff_getElem?.mpr ⟨i, by rw [List.getElem?_take_of_lt hlt, hi]⟩))
    · exact .inl (Option.some.inj (hi.symm.trans hempty))
    · refine hsides (.inr (List.mem_iff_getElem?.mpr ⟨i - (k + 1), ?_⟩))
      rw [List.getElem?_drop, Nat.add_sub_cancel' hgt, hi]

theorem hex_of_hextet {g : PyStr} (h : hextet g = true) {c : Nat} (hc : c ∈ g) :
    isHexDigit c = true :=
  List.all_eq_true.mp ((Bool.and_eq_true _ _).mp h).2 c hc

theorem mem_splitOn {a c : Nat} {text : PyStr} (hc : c ∈ text) :
    c = a ∨ ∃ part ∈ text.splitOn a, c ∈ part := by
  induction text with
  | nil => cases hc
  | cons d text ih =>
      rw [List.splitOn_cons_eq_if_modifyHead]
      obtain ⟨first, rest, hparts⟩ := List.exists_cons_of_ne_nil (List.splitOn_ne_nil a text)
      rw [hparts] at ih ⊢
      split
      · rename_i hd
        rcases List.mem_cons.mp hc with rfl | htext
        · exact .inl (beq_iff_eq.mp hd)
        · exact (ih htext).imp_right fun ⟨part, hpart, hmem⟩ =>
            ⟨part, List.mem_cons_of_mem _ hpart, hmem⟩
      · rcases List.mem_cons.mp hc with rfl | htext
        · exact .inr ⟨c :: first, List.mem_cons_self, List.mem_cons_self⟩
        · refine (ih htext).imp_right fun ⟨part, hpart, hmem⟩ => ?_
          rcases List.mem_cons.mp hpart with rfl | hrest
          · exact ⟨d :: part, List.mem_cons_self, List.mem_cons_of_mem _ hmem⟩
          · exact ⟨part, List.mem_cons_of_mem _ hrest, hmem⟩

theorem digit_of_octet {text : PyStr} (h : octet text = true) {c : Nat} (hc : c ∈ text) :
    isDigit c = true := by
  simp only [octet, Bool.and_eq_true] at h
  exact List.all_eq_true.mp h.1.1.2 c hc

theorem char_of_ipv4 {text : PyStr} (h : ipv4Address text = true) {c : Nat} (hc : c ∈ text) :
    c = 46 ∨ isDigit c = true :=
  (mem_splitOn hc).imp_right fun ⟨part, hpart, hmem⟩ =>
    digit_of_octet (List.all_eq_true.mp ((Bool.and_eq_true _ _).mp h).2 part hpart) hmem

theorem hex_of_digit {c : Nat} (h : isDigit c = true) : isHexDigit c = true := by
  simp [isHexDigit, h]

theorem group_of_ipv6 {address part : PyStr} (h : ipv6Address address = true)
    (hpart : part ∈ (address.splitOn 58).dropLast) : part = [] ∨ hextet part = true := by
  unfold ipv6Address groupsOf at h
  dsimp only at h
  split at h
  · exact hextet_of_valid h (List.mem_append_left _ hpart)
  · exact hextet_of_valid h (List.dropLast_subset _ hpart)

theorem part_of_ipv6 {address part : PyStr} (h : ipv6Address address = true)
    (hpart : part ∈ address.splitOn 58) :
    part = [] ∨ hextet part = true ∨ ipv4Address part = true := by
  have hne := List.splitOn_ne_nil 58 address
  rw [← List.dropLast_append_getLast hne] at hpart
  rcases List.mem_append.mp hpart with hinit | hend
  · exact (group_of_ipv6 h hinit).imp_right .inl
  · have hlast : (address.splitOn 58).getLastD [] = part := by
      rw [List.getLastD_eq_getLast?, List.getLast?_eq_some_getLast hne, List.mem_singleton.mp hend]
      rfl
    unfold ipv6Address groupsOf at h
    dsimp only at h
    rw [hlast] at h
    split at h
    · rename_i hdotted
      exact .inr (.inr ((Bool.and_eq_true _ _).mp hdotted).2)
    · refine (hextet_of_valid h ?_).imp_right .inl
      rw [List.mem_singleton.mp hend]
      exact List.getLast_mem hne

theorem char_of_ipv6 {address : PyStr} (h : ipv6Address address = true) {c : Nat}
    (hc : c ∈ address) : c = 58 ∨ c = 46 ∨ isHexDigit c = true := by
  refine (mem_splitOn hc).imp_right fun ⟨part, hpart, hmem⟩ => ?_
  rcases part_of_ipv6 h hpart with rfl | hgroup | hipv4
  · cases hmem
  · exact .inr (hex_of_hextet hgroup hmem)
  · exact (char_of_ipv4 hipv4 hmem).imp_right hex_of_digit

theorem split_ipv6 {address : PyStr} (h : ipv6Address address = true) :
    ∃ rest, address = (address.takeWhile fun c => c != 58) ++ 58 :: rest ∧
      ∀ c ∈ address.takeWhile fun c => c != 58, isHexDigit c = true := by
  by_cases hcolon : 58 ∈ address
  · obtain ⟨group, rest, rfl, hnone⟩ := List.eq_append_cons_of_mem hcolon
    have hgroup : ((group ++ 58 :: rest).takeWhile fun c => c != 58) = group := by
      have hchars (c : Nat) (hc : c ∈ group) : (c != 58) = true := by
        rw [bne_iff_ne]
        rintro rfl
        exact hnone hc
      rw [List.takeWhile_append_of_pos hchars]
      exact List.append_nil _
    refine ⟨rest, by rw [hgroup], fun c hc => ?_⟩
    rw [hgroup] at hc
    have hfirst : group ∈ ((group ++ 58 :: rest).splitOn 58).dropLast := by
      rw [List.splitOn_append_cons_self_of_not_mem hnone,
        List.dropLast_cons_of_ne_nil (List.splitOn_ne_nil _ _)]
      exact List.mem_cons_self
    rcases group_of_ipv6 h hfirst with rfl | hhextet
    · cases hc
    · exact hex_of_hextet hhextet hc
  · -- a single part makes one group, or the two of an IPv4 address
    unfold ipv6Address groupsOf at h
    rw [List.splitOn_eq_singleton hcolon] at h
    dsimp only at h
    split at h
    · cases h
    · simp [groupsValid, List.range_succ] at h

/-! ### Hosts, authorities and origins -/

/-- A character of a registered name or of an IPv4 address; a percent sign need not
introduce an escape. -/
def isNameChar (c : Nat) : Bool :=
  isAsciiLetter c || isDigit c || (py "-._~!$&'()*+,;=%").contains c

inductive Host where
  | name (text : PyStr) (valid : text.all isNameChar = true)
  | literal (address : PyStr) (valid : ipv6Address address = true)

def Host.text : Host → PyStr
  | .name text _ => text
  | .literal address _ => 91 :: (address ++ [93])

/-- `host[:port]`. -/
structure Authority where
  host : Host
  port : Option PyStr
  digits : ∀ p ∈ port, p.all isDigit = true

def portText : Option PyStr → PyStr
  | some port => 58 :: port
  | none => []

def Authority.text (authority : Authority) : PyStr := authority.host.text ++ portText authority.port

/-- `scheme://host[:port]`. -/
structure Origin where
  scheme : PyStr
  authority : Authority
  letter : scheme.head?.any isAsciiLetter = true
  valid : scheme.all isSchemeChar = true

def Origin.text (origin : Origin) : PyStr := origin.scheme ++ 58 :: 47 :: 47 :: origin.authority.text

/-- A character that neither ends an authority nor is dropped by `urlsplit`. -/
def Inside (c : Nat) : Prop := 33 ≤ c ∧ c < 127 ∧ c ≠ 35 ∧ c ≠ 47 ∧ c ≠ 63

theorem inside_nameChar {c : Nat} (h : isNameChar c = true) :
    Inside c ∧ c ≠ 58 ∧ c ≠ 91 ∧ c ≠ 93 := by
  simp only [isNameChar, isAsciiLetter, isLowerLetter, isDigit, Bool.or_eq_true, Bool.and_eq_true,
    decide_eq_true_eq, List.contains_eq_mem] at h
  rcases h with (h | h) | h
  · unfold Inside
    omega
  · unfold Inside
    omega
  · have hlisted : ∀ c ∈ py "-._~!$&'()*+,;=%",
        (33 ≤ c ∧ c < 127 ∧ c ≠ 35 ∧ c ≠ 47 ∧ c ≠ 63) ∧ c ≠ 58 ∧ c ≠ 91 ∧ c ≠ 93 := by
      decide
    exact hlisted c h

theorem hexDigit_bounds {c : Nat} (h : isHexDigit c = true) :
    (48 ≤ c ∧ c ≤ 57) ∨ (65 ≤ c ∧ c ≤ 70) ∨ (97 ≤ c ∧ c ≤ 102) := by
  simp only [isHexDigit, isDigit, Bool.or_eq_true, Bool.and_eq_true, decide_eq_true_eq] at h
  omega

theorem inside_ipv6 {address : PyStr} (h : ipv6Address address = true) {c : Nat}
    (hc : c ∈ address) : Inside c ∧ c ≠ 91 ∧ c ≠ 93 := by
  unfold Inside
  rcases char_of_ipv6 h hc with rfl | rfl | hhex
  · omega
  · omega
  · have := hexDigit_bounds hhex
    omega

theorem inside_digit {c : Nat} (h : isDigit c = true) : Inside c ∧ c ≠ 91 ∧ c ≠ 93 := by
  simp only [isDigit, Bool.and_eq_true, decide_eq_true_eq] at h
  unfold Inside
  omega

theorem inside_host (host : Host) {c : Nat} (hc : c ∈ host.text) : Inside c := by
  cases host with
  | name text valid => exact (inside_nameChar (List.all_eq_true.mp valid c hc)).1
  | literal address valid =>
      rcases List.mem_cons.mp hc with rfl | hrest
      · unfold Inside
        omega
      · rcases List.mem_append.mp hrest with haddress | hclose
        · exact (inside_ipv6 valid haddress).1
        · rw [List.mem_singleton.mp hclose]
          unfold Inside
          omega

theorem inside_port (authority : Authority) {c : Nat} (hc : c ∈ portText authority.port) :
    Inside c ∧ c ≠ 91 ∧ c ≠ 93 := by
  unfold portText at hc
  split at hc
  · rename_i port hport
    rcases List.mem_cons.mp hc with rfl | hdigits
    · unfold Inside
      omega
    · exact inside_digit (List.all_eq_true.mp (authority.digits port hport) c hdigits)
  · cases hc

theorem inside_authority (authority : Authority) {c : Nat} (hc : c ∈ authority.text) : Inside c :=
  (List.mem_append.mp hc).elim (inside_host authority.host) fun h => (inside_port authority h).1

theorem schemeChar_bounds {c : Nat} (h : isSchemeChar c = true) : 33 ≤ c ∧ c ≠ 58 := by
  simp only [isSchemeChar, isLowerLetter, isDigit, Bool.or_eq_true, Bool.and_eq_true,
    decide_eq_true_eq, beq_iff_eq] at h
  omega

theorem takeWhile_scheme (origin : Origin) (tail : PyStr) :
    ((origin.text ++ tail).takeWhile fun c => c != 58) = origin.scheme := by
  have hchars (c : Nat) (hc : c ∈ origin.scheme) : (c != 58) = true :=
    bne_iff_ne.mpr (schemeChar_bounds (List.all_eq_true.mp origin.valid c hc)).2
  rw [Origin.text, List.append_assoc, List.takeWhile_append_of_pos hchars]
  exact List.append_nil _

theorem length_scheme_lt (origin : Origin) (tail : PyStr) :
    origin.scheme.length < (origin.text ++ tail).length := by
  simp [Origin.text]

theorem withoutScheme_origin (origin : Origin) (tail : PyStr) :
    withoutScheme (origin.text ++ tail) = 47 :: 47 :: (origin.authority.text ++ tail) := by
  unfold withoutScheme
  dsimp only
  rw [takeWhile_scheme, if_pos ⟨length_scheme_lt origin tail, origin.letter, origin.valid⟩]
  simp [Origin.text]

theorem trimmed_origin (origin : Origin) (tail : PyStr) :
    (((origin.text ++ tail).dropWhile fun c => decide (c ≤ 32)).filter
      fun c => c != 9 && c != 10 && c != 13) =
        origin.text ++ tail.filter fun c => c != 9 && c != 10 && c != 13 := by
  have hchars (c : Nat) (hc : c ∈ origin.text) : 33 ≤ c := by
    rcases List.mem_append.mp hc with hscheme | hrest
    · exact (schemeChar_bounds (List.all_eq_true.mp origin.valid c hscheme)).1
    · simp only [List.mem_cons] at hrest
      rcases hrest with rfl | rfl | rfl | hauthority
      · omega
      · omega
      · omega
      · exact (inside_authority origin.authority hauthority).1
  have hnone : ((origin.text ++ tail).dropWhile fun c => decide (c ≤ 32)) = origin.text ++ tail := by
    cases htext : origin.text with
    | nil => simp [Origin.text] at htext
    | cons c rest =>
        refine List.dropWhile_cons_of_neg ?_
        have := hchars c (htext ▸ List.mem_cons_self)
        simp only [decide_eq_true_eq]
        omega
  rw [hnone, List.filter_append]
  congr 1
  refine List.filter_eq_self.mpr fun c hc => ?_
  have := hchars c hc
  simp only [Bool.and_eq_true, bne_iff_ne]
  omega

theorem bracketedNetloc_literal {address : PyStr} (valid : ipv6Address address = true)
    (rest : PyStr) : bracketedNetloc (91 :: (address ++ 93 :: rest)) = true := by
  have hchars (c : Nat) (hc : c ∈ address) : c ≠ 37 ∧ c ≠ 93 ∧ c ≠ 118 := by
    rcases char_of_ipv6 valid hc with rfl | rfl | hhex
    · omega
    · omega
    · have := hexDigit_bounds hhex
      omega
  have hhost : ((((91 :: (address ++ 93 :: rest)).dropWhile fun c => c != 91).drop 1).takeWhile
      fun c => c != 93) = address := by
    show ((address ++ 93 :: rest).takeWhile fun c => c != 93) = address
    rw [List.takeWhile_append_of_pos fun c hc => bne_iff_ne.mpr (hchars c hc).2.1]
    exact List.append_nil _
  have hscope : (address.takeWhile fun c => c != 37) = address :=
    List.takeWhile_eq_self_iff.mpr fun c hc => bne_iff_ne.mpr (hchars c hc).1
  unfold bracketedNetloc
  dsimp only
  rw [hhost]
  split
  · exact absurd rfl (hchars 118 List.mem_cons_self).2.2
  · simp [hscope, valid]

/-- The settings whose `urlsplit` is Python's. -/
def pythonSettings (settings : Settings) : Settings :=
  { settings with bracketedNetloc := bracketedNetloc }

theorem netloc_origin_append (settings : Settings) (origin : Origin) {tail : PyStr}
    (htail : ∀ c ∈ tail.head?, c = 47 ∨ c = 63 ∨ c = 35) :
    netloc (pythonSettings settings) (origin.text ++ tail) = some origin.authority.text := by
  have hinside (c : Nat) (hc : c ∈ origin.authority.text) :
      (c != 47 && c != 63 && c != 35) = true := by
    obtain ⟨-, -, hhash, hslash, hquery⟩ := inside_authority origin.authority hc
    simp [hhash, hslash, hquery]
  have hhost : ((origin.authority.text ++ tail.filter fun c => c != 9 && c != 10 && c != 13).takeWhile
      fun c => c != 47 && c != 63 && c != 35) = origin.authority.text := by
    rw [List.takeWhile_append_of_pos hinside]
    cases tail with
    | nil => exact List.append_nil _
    | cons c rest =>
        rcases htail c rfl with rfl | rfl | rfl
        all_goals exact List.append_nil _
  unfold netloc
  rw [trimmed_origin]
  dsimp only
  rw [withoutScheme_origin]
  show (if (_ : Bool) = true then if (_ : Bool) = true then some _ else none else some _) = _
  rw [hhost]
  cases hkind : origin.authority.host with
  | name text valid =>
      have hnone (c : Nat) (hc : c ∈ origin.authority.text) : c ≠ 91 ∧ c ≠ 93 := by
        rcases List.mem_append.mp hc with hname | hport
        · rw [hkind] at hname
          exact (inside_nameChar (List.all_eq_true.mp valid c hname)).2.2
        · exact (inside_port origin.authority hport).2
      have hopen : origin.authority.text.contains 91 = false := by
        simpa using fun hmem => (hnone 91 hmem).1 rfl
      have hclose : origin.authority.text.contains 93 = false := by
        simpa using fun hmem => (hnone 93 hmem).2 rfl
      rw [hopen, hclose]
      rfl
  | literal address valid =>
      have htext : origin.authority.text = 91 :: (address ++ 93 :: portText origin.authority.port) := by
        rw [Authority.text, hkind]
        simp [Host.text]
      rw [htext]
      simp [pythonSettings, bracketedNetloc_literal valid]

theorem netloc_origin (settings : Settings) (origin : Origin) :
    netloc (pythonSettings settings) origin.text = some origin.authority.text := by
  have h : netloc (pythonSettings settings) (origin.text ++ []) = some origin.authority.text :=
    netloc_origin_append settings origin nofun
  rwa [List.append_nil] at h

/-- What is left of a host before its first colon, in lower case. -/
def Host.cut : Host → PyStr
  | .name text _ => text.map lower
  | .literal address _ => (91 :: address.takeWhile fun c => c != 58).map lower

theorem strip_of_inside {text : PyStr} (h : ∀ c ∈ text, Inside c) : strip text = text := by
  have hnone (text : PyStr) (h : ∀ c ∈ text, Inside c) : text.dropWhile isSplitSpace = text := by
    cases text with
    | nil => rfl
    | cons c rest =>
        refine List.dropWhile_cons_of_neg ?_
        obtain ⟨hleast, hmost, -⟩ := h c List.mem_cons_self
        simp only [isSplitSpace, isSpace, Bool.or_eq_true, Bool.and_eq_true, decide_eq_true_eq,
          beq_iff_eq]
        omega
  rw [strip, hnone text h, hnone _ fun c hc => h c (List.mem_reverse.mp hc), List.reverse_reverse]

theorem bareHost_authority (authority : Authority) :
    bareHost authority.text = authority.host.cut := by
  have hinside (c : Nat) (hc : c ∈ authority.text.takeWhile fun c => c != 58) : Inside c :=
    inside_authority authority (List.takeWhile_subset _ hc)
  rw [bareHost, strip_of_inside hinside]
  cases hkind : authority.host with
  | name text valid =>
      have hname (c : Nat) (hc : c ∈ text) : (c != 58) = true :=
        bne_iff_ne.mpr (inside_nameChar (List.all_eq_true.mp valid c hc)).2.1
      have hport : ((portText authority.port).takeWhile fun c => c != 58) = [] := by
        unfold portText
        split <;> rfl
      have htext : authority.text = text ++ portText authority.port := by
        rw [Authority.text, hkind]
        rfl
      rw [htext, List.takeWhile_append_of_pos hname, hport, List.append_nil]
      rfl
  | literal address valid =>
      obtain ⟨rest, hsplit, hgroup⟩ := split_ipv6 valid
      have hhead (c : Nat) (hc : c ∈ 91 :: address.takeWhile fun c => c != 58) :
          (c != 58) = true := by
        rcases List.mem_cons.mp hc with rfl | hmem
        · decide
        · have := hexDigit_bounds (hgroup c hmem)
          simp only [bne_iff_ne]
          omega
      have htext : authority.text =
          (91 :: address.takeWhile fun c => c != 58) ++ 58 :: (rest ++ 93 :: portText authority.port) := by
        rw [Authority.text, hkind, Host.text]
        conv_lhs => rw [hsplit]
        simp
      rw [htext, List.takeWhile_append_of_pos hhead]
      exact congrArg (List.map lower) (List.append_nil _)

/-- The cookie domain, its leading dots stripped, in lower case. -/
def cookieDomain (settings : Settings) : PyStr :=
  (settings.sessionCookieDomain.dropWhile fun c => c == 46).map lower

/-- The cookie domain is not empty, and the host is this domain or a subdomain of it. -/
def Covers (settings : Settings) (host : PyStr) : Prop :=
  cookieDomain settings ≠ [] ∧
    (host = cookieDomain settings ∨ 46 :: cookieDomain settings <:+ host)

/-- The hosts are equal, ignoring case. -/
def SameHost (origin request : Host) : Prop := origin.text.map lower = request.text.map lower

/-- What an origin is allowed for. -/
def Trusted (settings : Settings) (origin request : Host) : Prop :=
  SameHost origin request ∨ Covers settings (origin.text.map lower)

theorem originAllowed_origin (settings : Settings) (origin : Origin) (request : Authority) :
    originAllowed (pythonSettings settings) origin.text request.text = some true ↔
      origin.authority.host.cut ≠ [] ∧ (origin.authority.host.cut = request.host.cut ∨
        Covers settings origin.authority.host.cut) := by
  rw [originAllowed, netloc_origin, Option.map_some, Option.some_inj]
  simp only [bareHost_authority]
  split
  · rename_i hempty
    simp [hempty]
  · rename_i hne
    split
    · rename_i hsame
      exact iff_of_true rfl ⟨hne, .inl hsame⟩
    · rename_i hother
      simp [Covers, cookieDomain, pythonSettings, hne, hother]

/-- The first group of a literal, in lower case. -/
def Host.group : Host → Option PyStr
  | .name _ _ => none
  | .literal address _ => some ((address.takeWhile fun c => c != 58).map lower)

/-- The hosts on which the check sees enough: a name, unless both hosts are empty; a
literal that is the host of the request; and otherwise a literal for which the first
group and the whole lead to the same decision. -/
def Legible (settings : Settings) (origin request : Host) : Prop :=
  match origin with
  | .name text _ => text ≠ [] ∨ request.text ≠ []
  | .literal _ _ =>
      SameHost origin request ∨
        (origin.group ≠ request.group ∧ cookieDomain settings ≠ origin.cut ∧
          ¬ Covers settings (origin.text.map lower)) ∨
        (origin.group = request.group ∧ Covers settings (origin.text.map lower))

theorem lower_eq_iff {c d : Nat} (hd : d = 46 ∨ d = 58 ∨ d = 91 ∨ d = 93) : lower c = d ↔ c = d := by
  unfold lower
  repeat' split
  all_goals omega

theorem mem_map_lower {text : PyStr} {d : Nat} (hd : d = 46 ∨ d = 58 ∨ d = 91 ∨ d = 93) :
    d ∈ text.map lower ↔ d ∈ text := by
  simp only [List.mem_map, lower_eq_iff hd, exists_eq_right]

theorem cut_literal_ne_name {address text : PyStr} {valid : ipv6Address address = true}
    {valid' : text.all isNameChar = true} :
    (Host.literal address valid).cut ≠ (Host.name text valid').cut := by
  intro h
  have hmem : 91 ∈ (Host.name text valid').cut := h ▸ List.mem_cons_self
  rw [Host.cut, mem_map_lower (by decide)] at hmem
  exact (inside_nameChar (List.all_eq_true.mp valid' 91 hmem)).2.2.1 rfl

theorem cut_eq_iff_group {address : PyStr} {valid : ipv6Address address = true} {request : Host} :
    (Host.literal address valid).cut = request.cut ↔
      (Host.literal address valid).group = request.group := by
  cases request with
  | name text valid' => exact iff_of_false cut_literal_ne_name nofun
  | literal address' valid' => simp [Host.cut, Host.group]

theorem covers_cut_iff (settings : Settings) {address : PyStr} {valid : ipv6Address address = true} :
    Covers settings (Host.literal address valid).cut ↔
      cookieDomain settings = (Host.literal address valid).cut := by
  constructor
  · rintro ⟨-, hsame | hsuffix⟩
    · exact hsame.symm
    · -- a group has no dot
      have hdot : 46 ∈ (Host.literal address valid).cut := hsuffix.subset List.mem_cons_self
      rw [Host.cut, mem_map_lower (by decide)] at hdot
      obtain ⟨rest, -, hgroup⟩ := split_ipv6 valid
      rcases List.mem_cons.mp hdot with heq | hmem
      · cases heq
      · have := hexDigit_bounds (hgroup 46 hmem)
        omega
  · intro h
    exact ⟨by rw [h]; nofun, .inl h.symm⟩

theorem group_of_sameHost {address : PyStr} {valid : ipv6Address address = true} {request : Host}
    (h : SameHost (.literal address valid) request) :
    (Host.literal address valid).group = request.group := by
  cases request with
  | name text valid' =>
      have hmem : 91 ∈ text.map lower := by
        have hopen : 91 ∈ (Host.literal address valid).text.map lower := List.mem_cons_self
        rw [h] at hopen
        exact hopen
      rw [mem_map_lower (by decide)] at hmem
      exact absurd rfl (inside_nameChar (List.all_eq_true.mp valid' 91 hmem)).2.2.1
  | literal address' valid' =>
      have haddress : address.map lower = address'.map lower := by
        simpa [SameHost, Host.text] using h
      have hgroup (address : PyStr) : (address.takeWhile fun c => c != 58).map lower =
          (address.map lower).takeWhile fun c => c != 58 := by
        rw [List.takeWhile_map]
        congr 2
        funext c
        exact Bool.eq_iff_iff.mpr (by simp [lower_eq_iff])
      rw [Host.group, Host.group, hgroup, hgroup, haddress]

theorem not_covers_of_cut {settings : Settings} {address : PyStr}
    {valid : ipv6Address address = true}
    (h : cookieDomain settings = (Host.literal address valid).cut) :
    ¬ Covers settings ((Host.literal address valid).text.map lower) := by
  have htail : 91 ∉ (address ++ [93]).map lower := by
    rw [mem_map_lower (by decide), List.mem_append, List.mem_singleton]
    rintro (haddress | hclose)
    · exact (inside_ipv6 valid haddress).2.1 rfl
    · cases hclose
  rintro ⟨-, hsame | hsuffix⟩
  · -- the group has no closing bracket
    have hclose : 93 ∈ (Host.literal address valid).cut := by
      rw [← h, ← hsame, mem_map_lower (by decide)]
      simp [Host.text]
    rw [Host.cut, mem_map_lower (by decide)] at hclose
    rcases List.mem_cons.mp hclose with heq | hmem
    · cases heq
    · exact (inside_ipv6 valid (List.takeWhile_subset _ hmem)).2.2 rfl
  · -- nor does the bracket come after a dot
    obtain ⟨before, hbefore⟩ := hsuffix
    rw [h] at hbefore
    cases before with
    | nil => cases hbefore
    | cons c before =>
        refine htail ?_
        rw [← (List.cons.inj hbefore).2]
        exact List.mem_append_right _ (List.mem_cons_of_mem _ List.mem_cons_self)

theorem cut_name_eq_iff {text : PyStr} {valid : text.all isNameChar = true} {request : Host} :
    (Host.name text valid).cut = request.cut ↔ SameHost (.name text valid) request := by
  cases request with
  | name text' valid' => exact Iff.rfl
  | literal address valid' =>
      refine iff_of_false (fun h => cut_literal_ne_name h.symm) fun h => ?_
      have hgroup : (Host.literal address valid').group = (Host.name text valid).group :=
        group_of_sameHost h.symm
      cases hgroup

theorem not_covers_nil (settings : Settings) : ¬ Covers settings [] := by
  rintro ⟨hne, hsame | hsuffix⟩
  · exact hne hsame.symm
  · cases List.suffix_nil.mp hsuffix

/-- On every well-formed origin and host the check decides what it should if and only
if it sees enough of the hosts. -/
theorem origin_allowed_exact_iff (settings : Settings) (origin : Origin) (request : Authority) :
    (originAllowed (pythonSettings settings) origin.text request.text = some true ↔
        Trusted settings origin.authority.host request.host) ↔
      Legible settings origin.authority.host request.host := by
  rw [originAllowed_origin]
  cases origin.authority.host with
  | name text valid =>
      rw [cut_name_eq_iff]
      simp only [Host.cut, Trusted, Legible, ne_eq, List.map_eq_nil_iff]
      by_cases hempty : text = []
      · subst hempty
        have hsame : SameHost (.name [] valid) request.host ↔ request.host.text = [] := by
          simp [SameHost, Host.text]
        have hnot := not_covers_nil settings
        simp only [Host.text, List.map_nil]
        tauto
      · simp only [Host.text]
        tauto
  | literal address valid =>
      have hcut : (Host.literal address valid).cut = request.host.cut ↔
          (Host.literal address valid).group = request.host.group := cut_eq_iff_group
      have hcovers : Covers settings (Host.literal address valid).cut ↔
          cookieDomain settings = (Host.literal address valid).cut := covers_cut_iff settings
      have hne : (Host.literal address valid).cut ≠ [] := nofun
      have hgroup : SameHost (.literal address valid) request.host →
          (Host.literal address valid).group = request.host.group := group_of_sameHost
      have hnot : cookieDomain settings = (Host.literal address valid).cut →
          ¬ Covers settings ((Host.literal address valid).text.map lower) := not_covers_of_cut
      rw [hcut, hcovers]
      simp only [Trusted, Legible]
      tauto

/-- No cookie domain. -/
def hostOnly : Settings := ⟨[], fun _ => "", fun _ => false, fun _ => []⟩

/-- `http://[::1]:3000`. -/
def foreignOrigin : Origin where
  scheme := py "http"
  authority := ⟨.literal (py "::1") (by decide), some (py "3000"), by rintro _ ⟨⟩; decide⟩
  letter := by decide
  valid := by decide

/-- `[::2]:8000`. -/
def ownAuthority : Authority :=
  ⟨.literal (py "::2") (by decide), some (py "8000"), by rintro _ ⟨⟩; decide⟩

/-- Both hosts are cut down to the opening bracket. -/
theorem foreign_literal_allowed :
    originAllowed (pythonSettings hostOnly) foreignOrigin.text ownAuthority.text = some true ∧
      ¬ Trusted hostOnly foreignOrigin.authority.host ownAuthority.host := by
  refine ⟨by decide, ?_⟩
  rintro (hsame | ⟨hdomain, -⟩)
  · exact absurd hsame (by unfold SameHost; decide)
  · exact hdomain rfl

end Socle.CsrfOrigin
