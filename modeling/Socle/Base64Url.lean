import Socle.PythonText

/-!
Base64 with the URL alphabet: the encoder, without padding, and the lenient
decoder of `binascii.a2b_base64`, which skips what is not in the alphabet.
-/

namespace Socle.Base64Url

open Socle.PythonText

/-- The character of a value below 64. -/
def symbol (v : Nat) : CodePoint :=
  Fin.ofNat _ (if v < 26 then 65 + v else if v < 52 then 97 + (v - 26)
    else if v < 62 then 48 + (v - 52) else if v = 62 then 45 else 95)

/-- `urlsafe_b64decode` maps `-` and `_` to `+` and `/`, which stay valid. -/
def sextet (c : CodePoint) : Option Nat :=
  let n := c.val
  if 65 ≤ n ∧ n ≤ 90 then some (n - 65)
  else if 97 ≤ n ∧ n ≤ 122 then some (n - 97 + 26)
  else if 48 ≤ n ∧ n ≤ 57 then some (n - 48 + 52)
  else if n = 45 ∨ n = 43 then some 62
  else if n = 95 ∨ n = 47 then some 63
  else none

def pad : CodePoint := 61

/-- `urlsafe_b64encode(data).rstrip(b"=")`. -/
def b64encode : Bytes → Str
  | [] => []
  | [a] => [symbol (a.toNat / 4), symbol (a.toNat % 4 * 16)]
  | [a, b] =>
      [symbol (a.toNat / 4), symbol (a.toNat % 4 * 16 + b.toNat / 16),
        symbol (b.toNat % 16 * 4)]
  | a :: b :: c :: rest =>
      symbol (a.toNat / 4) :: symbol (a.toNat % 4 * 16 + b.toNat / 16) ::
        symbol (b.toNat % 16 * 4 + c.toNat / 64) :: symbol (c.toNat % 64) :: b64encode rest

/-- The loop of `a2b_base64`: the position in the quad, the bits left over from the
last character and the padding seen since.  `none` is a `binascii.Error`. -/
def a2b : Nat → Nat → Nat → Str → Option Bytes
  | quadPos, _, _, [] => if quadPos = 0 then some [] else none
  | quadPos, left, pads, c :: rest =>
      if c = pad then
        if quadPos ≥ 2 ∧ quadPos + (pads + 1) ≥ 4 then some []
        else a2b quadPos left (if quadPos ≥ 2 then pads + 1 else pads) rest
      else
        match sextet c with
        | none => a2b quadPos left pads rest
        | some v =>
            match quadPos with
            | 0 => a2b 1 v 0 rest
            | 1 => (a2b 2 (v % 16) 0 rest).map (.ofNat (left * 4 + v / 16) :: ·)
            | 2 => (a2b 3 (v % 4) 0 rest).map (.ofNat (left * 16 + v / 4) :: ·)
            | _ => (a2b 0 0 0 rest).map (.ofNat (left * 64 + v) :: ·)

/-- `urlsafe_b64decode` of a string, which must be ASCII. -/
def urlsafeB64decode (data : Str) : Option Bytes :=
  if isAscii data then a2b 0 0 0 data else none

/-- The characters that fill up the last quad. -/
def padding (data : Str) : Str := List.replicate ((-(data.length : Int)) % 4).toNat pad

theorem sextet_symbol {v : Nat} (hv : v < 64) : sextet (symbol v) = some v := by
  revert v
  decide

theorem symbol_ne_pad {v : Nat} (hv : v < 64) : symbol v ≠ pad := by
  revert v
  decide

section Quad

variable {v left pads : Nat} {rest : Str}

theorem a2b_first (hv : v < 64) : a2b 0 left pads (symbol v :: rest) = a2b 1 v 0 rest := by
  simp [a2b, symbol_ne_pad hv, sextet_symbol hv]

theorem a2b_second (hv : v < 64) : a2b 1 left pads (symbol v :: rest) =
    (a2b 2 (v % 16) 0 rest).map (.ofNat (left * 4 + v / 16) :: ·) := by
  simp [a2b, symbol_ne_pad hv, sextet_symbol hv]

theorem a2b_third (hv : v < 64) : a2b 2 left pads (symbol v :: rest) =
    (a2b 3 (v % 4) 0 rest).map (.ofNat (left * 16 + v / 4) :: ·) := by
  simp [a2b, symbol_ne_pad hv, sextet_symbol hv]

theorem a2b_fourth (hv : v < 64) : a2b 3 left pads (symbol v :: rest) =
    (a2b 0 0 0 rest).map (.ofNat (left * 64 + v) :: ·) := by
  simp [a2b, symbol_ne_pad hv, sextet_symbol hv]

end Quad

theorem byte_eq {n : Nat} {b : UInt8} (h : n = b.toNat) : UInt8.ofNat n = b := by
  rw [h]
  exact UInt8.ofNat_toNat

theorem a2b_b64encode (data : Bytes) :
    a2b 0 0 0 (b64encode data ++ padding (b64encode data)) = some data := by
  induction data using b64encode.induct with
  | case1 => rfl
  | case2 a =>
      have ha := a.toNat_lt
      have hfirst : UInt8.ofNat (a.toNat / 4 * 4 + a.toNat % 4 * 16 / 16) = a := byte_eq (by omega)
      have hpadding : padding (b64encode [a]) = [pad, pad] := rfl
      rw [hpadding]
      simp only [b64encode, List.cons_append, List.nil_append]
      rw [a2b_first (by omega), a2b_second (by omega), hfirst]
      simp [a2b]
  | case3 a b =>
      have ha := a.toNat_lt
      have hb := b.toNat_lt
      have hfirst : UInt8.ofNat (a.toNat / 4 * 4 + (a.toNat % 4 * 16 + b.toNat / 16) / 16) = a :=
        byte_eq (by omega)
      have hsecond : UInt8.ofNat ((a.toNat % 4 * 16 + b.toNat / 16) % 16 * 16 +
          b.toNat % 16 * 4 / 4) = b := byte_eq (by omega)
      have hpadding : padding (b64encode [a, b]) = [pad] := rfl
      rw [hpadding]
      simp only [b64encode, List.cons_append, List.nil_append]
      rw [a2b_first (by omega), a2b_second (by omega), a2b_third (by omega), hfirst, hsecond]
      simp [a2b]
  | case4 a b c rest ih =>
      have ha := a.toNat_lt
      have hb := b.toNat_lt
      have hc := c.toNat_lt
      have hfirst : UInt8.ofNat (a.toNat / 4 * 4 + (a.toNat % 4 * 16 + b.toNat / 16) / 16) = a :=
        byte_eq (by omega)
      have hsecond : UInt8.ofNat ((a.toNat % 4 * 16 + b.toNat / 16) % 16 * 16 +
          (b.toNat % 16 * 4 + c.toNat / 64) / 4) = b := byte_eq (by omega)
      have hthird : UInt8.ofNat ((b.toNat % 16 * 4 + c.toNat / 64) % 4 * 64 + c.toNat % 64) = c :=
        byte_eq (by omega)
      have hpadding : padding (b64encode (a :: b :: c :: rest)) = padding (b64encode rest) := by
        simp only [padding, b64encode, List.length_cons]
        congr 2
        omega
      rw [hpadding]
      simp only [b64encode, List.cons_append]
      rw [a2b_first (by omega), a2b_second (by omega), a2b_third (by omega), a2b_fourth (by omega),
        hfirst, hsecond, hthird, ih]
      rfl

theorem mem_b64encode {data : Bytes} {c : CodePoint} (hc : c ∈ b64encode data) :
    ∃ v, v < 64 ∧ c = symbol v := by
  induction data using b64encode.induct with
  | case1 => cases hc
  | case2 a =>
      have ha := a.toNat_lt
      simp only [b64encode, List.mem_cons, List.not_mem_nil, or_false] at hc
      rcases hc with rfl | rfl
      · exact ⟨_, by omega, rfl⟩
      · exact ⟨_, by omega, rfl⟩
  | case3 a b =>
      have ha := a.toNat_lt
      have hb := b.toNat_lt
      simp only [b64encode, List.mem_cons, List.not_mem_nil, or_false] at hc
      rcases hc with rfl | rfl | rfl
      · exact ⟨_, by omega, rfl⟩
      · exact ⟨_, by omega, rfl⟩
      · exact ⟨_, by omega, rfl⟩
  | case4 a b d rest ih =>
      have ha := a.toNat_lt
      have hb := b.toNat_lt
      have hd := d.toNat_lt
      simp only [b64encode, List.mem_cons] at hc
      rcases hc with rfl | rfl | rfl | rfl | hrest
      · exact ⟨_, by omega, rfl⟩
      · exact ⟨_, by omega, rfl⟩
      · exact ⟨_, by omega, rfl⟩
      · exact ⟨_, by omega, rfl⟩
      · exact ih hrest

theorem symbol_ascii {v : Nat} (hv : v < 64) : (symbol v).val < 128 := by
  revert v
  decide

theorem isAscii_b64encode (data : Bytes) : isAscii (b64encode data) = true := by
  refine List.all_eq_true.mpr fun c hc => ?_
  obtain ⟨v, hv, rfl⟩ := mem_b64encode hc
  exact decide_eq_true (symbol_ascii hv)

theorem isAscii_padding (data : Str) : isAscii (padding data) = true := by
  refine List.all_eq_true.mpr fun c hc => ?_
  rw [List.eq_of_mem_replicate hc]
  decide

theorem urlsafeB64decode_b64encode (data : Bytes) :
    urlsafeB64decode (b64encode data ++ padding (b64encode data)) = some data := by
  have hascii : isAscii (b64encode data ++ padding (b64encode data)) = true := by
    rw [isAscii_append, isAscii_b64encode, isAscii_padding]
    rfl
  rw [urlsafeB64decode, if_pos hascii, a2b_b64encode]

theorem b64encode_ne_nil {data : Bytes} (hdata : data ≠ []) : b64encode data ≠ [] := by
  match data with
  | [] => exact absurd rfl hdata
  | [a] => simp [b64encode]
  | [a, b] => simp [b64encode]
  | a :: b :: c :: rest => simp [b64encode]

end Socle.Base64Url
