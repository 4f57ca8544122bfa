import Mathlib.Data.List.Basic

/-!
# Code points and their bytes

## Code points

A Python string is a sequence of code points, among which there may be surrogates.
-/

namespace Ump.Codec

inductive CodePoint where
  | char (c : Char)
  | surrogate (n : Fin 2048)
deriving DecidableEq, Repr

abbrev Points := List CodePoint

namespace CodePoint

/-- `ord`. -/
def code : CodePoint -> Nat
  | char c => c.toNat
  | surrogate n => 0xD800 + n.val

/-- `chr`. -/
def ofCode (n : Nat) : CodePoint :=
  if h : 0xD800 ≤ n ∧ n < 0xE000 then .surrogate ⟨n - 0xD800, by omega⟩
  else .char (Char.ofNat n)

theorem code_lt (p : CodePoint) : p.code < 0x110000 := by
  cases p with
  | char c =>
      have hvalid := c.valid
      simp only [UInt32.isValidChar, Nat.isValidChar] at hvalid
      show c.val.toNat < _
      omega
  | surrogate n =>
      have hn := n.isLt
      show 0xD800 + n.val < _
      omega

theorem ofCode_code (p : CodePoint) : ofCode p.code = p := by
  cases p with
  | char c =>
      have hvalid := c.valid
      simp only [UInt32.isValidChar, Nat.isValidChar] at hvalid
      have hnot : ¬ (0xD800 ≤ c.toNat ∧ c.toNat < 0xE000) := by
        have hcode : c.toNat = c.val.toNat := rfl
        omega
      unfold ofCode code
      dsimp only
      rw [dif_neg hnot, Char.ofNat_toNat]
  | surrogate n =>
      have hn := n.isLt
      have hin : 0xD800 ≤ 0xD800 + n.val ∧ 0xD800 + n.val < 0xE000 := by omega
      unfold ofCode code
      dsimp only
      rw [dif_pos hin]
      have hsame : 0xD800 + n.val - 0xD800 = n.val := Nat.add_sub_cancel_left _ _
      simp only [hsame]

theorem code_ofCode {n : Nat} (h : n < 0x110000) : (ofCode n).code = n := by
  unfold ofCode
  split_ifs with hsurrogate
  · show 0xD800 + (n - 0xD800) = n
    omega
  · have hvalid : n.isValidChar := by
      by_cases hlow : n < 0xD800
      · exact Or.inl hlow
      · exact Or.inr ⟨by omega, h⟩
    show (Char.ofNat n).toNat = n
    rw [Char.ofNat, dif_pos hvalid]
    rfl

theorem code_inj {p q : CodePoint} (h : p.code = q.code) : p = q := by
  rw [← ofCode_code p, h, ofCode_code]

end CodePoint

def ofText (text : List Char) : Points :=
  text.map CodePoint.char

/-!
## UTF-8

Python decodes with `surrogatepass`, which takes the three bytes of a surrogate as well.
-/

def utf8 (n : Nat) : List Nat :=
  if n < 0x80 then [n]
  else if n < 0x800 then [0xC0 + n / 64, 0x80 + n % 64]
  else if n < 0x10000 then [0xE0 + n / 4096, 0x80 + n / 64 % 64, 0x80 + n % 64]
  else [0xF0 + n / 262144, 0x80 + n / 4096 % 64, 0x80 + n / 64 % 64, 0x80 + n % 64]

def encodeUtf8 (text : Points) : List Nat :=
  text.flatMap (fun p => utf8 p.code)

def isTail (b : Nat) : Bool :=
  decide (0x80 ≤ b) && decide (b < 0xC0)

/-- `bytes.decode("utf-8", "surrogatepass")`; overlong forms are refused. -/
def decodeUtf8 : List Nat -> Option Points
  | [] => some []
  | a :: rest =>
      if a < 0x80 then
        (decodeUtf8 rest).map (fun text => CodePoint.ofCode a :: text)
      else if 0xC2 ≤ a ∧ a < 0xE0 then
        match rest with
        | b :: rest =>
            if isTail b then
              (decodeUtf8 rest).map (fun text =>
                CodePoint.ofCode (64 * (a - 0xC0) + (b - 0x80)) :: text)
            else none
        | [] => none
      else if 0xE0 ≤ a ∧ a < 0xF0 then
        match rest with
        | b :: c :: rest =>
            let n := 4096 * (a - 0xE0) + 64 * (b - 0x80) + (c - 0x80)
            if isTail b && isTail c && decide (0x800 ≤ n) then
              (decodeUtf8 rest).map (fun text => CodePoint.ofCode n :: text)
            else none
        | _ => none
      else if 0xF0 ≤ a ∧ a < 0xF5 then
        match rest with
        | b :: c :: d :: rest =>
            let n := 262144 * (a - 0xF0) + 4096 * (b - 0x80) + 64 * (c - 0x80) + (d - 0x80)
            if isTail b && isTail c && isTail d && decide (0x10000 ≤ n ∧ n < 0x110000) then
              (decodeUtf8 rest).map (fun text => CodePoint.ofCode n :: text)
            else none
        | _ => none
      else none

theorem isTail_iff {b : Nat} : isTail b = true <-> 0x80 ≤ b ∧ b < 0xC0 := by
  simp [isTail]

theorem decodeUtf8_utf8 {n : Nat} (h : n < 0x110000) (rest : List Nat) :
    decodeUtf8 (utf8 n ++ rest) =
      (decodeUtf8 rest).map (fun text => CodePoint.ofCode n :: text) := by
  have htail : forall m, isTail (0x80 + m % 64) = true := by
    intro m
    rw [isTail_iff]
    omega
  unfold utf8
  split_ifs with hone htwo hthree
  · rw [List.cons_append, List.nil_append, decodeUtf8.eq_def]
    dsimp only
    rw [if_pos hone]
  · have hsame : 64 * (0xC0 + n / 64 - 0xC0) + (0x80 + n % 64 - 0x80) = n := by omega
    rw [List.cons_append, List.cons_append, List.nil_append, decodeUtf8,
      if_neg (by omega), if_pos (by omega)]
    simp only [htail, if_true, hsame]
  · have hsame : 4096 * (0xE0 + n / 4096 - 0xE0) + 64 * (0x80 + n / 64 % 64 - 0x80) +
        (0x80 + n % 64 - 0x80) = n := by omega
    rw [List.cons_append, List.cons_append, List.cons_append, List.nil_append, decodeUtf8,
      if_neg (by omega), if_neg (by omega), if_pos (by omega)]
    simp only [htail, hsame, Bool.true_and, decide_eq_true (Nat.not_lt.mp htwo), if_true]
  · have hsame : 262144 * (0xF0 + n / 262144 - 0xF0) + 4096 * (0x80 + n / 4096 % 64 - 0x80) +
        64 * (0x80 + n / 64 % 64 - 0x80) + (0x80 + n % 64 - 0x80) = n := by omega
    have hrange : 0x10000 ≤ n ∧ n < 0x110000 := by omega
    rw [List.cons_append, List.cons_append, List.cons_append, List.cons_append,
      List.nil_append, decodeUtf8, if_neg (by omega), if_neg (by omega), if_neg (by omega),
      if_pos (by omega)]
    simp only [htail, hsame, Bool.true_and, decide_eq_true hrange, if_true]

theorem decodeUtf8_encodeUtf8 (text : Points) : decodeUtf8 (encodeUtf8 text) = some text := by
  induction text with
  | nil => rfl
  | cons p rest ih =>
      show decodeUtf8 (utf8 p.code ++ encodeUtf8 rest) = _
      rw [decodeUtf8_utf8 p.code_lt, ih, Option.map_some, CodePoint.ofCode_code]

theorem encodeUtf8_cons {n : Nat} (h : n < 0x110000) (text : Points) :
    encodeUtf8 (CodePoint.ofCode n :: text) = utf8 n ++ encodeUtf8 text := by
  show utf8 (CodePoint.ofCode n).code ++ encodeUtf8 text = _
  rw [CodePoint.code_ofCode h]

theorem utf8_two {a b : Nat} (ha : 0xC2 ≤ a ∧ a < 0xE0) (hb : 0x80 ≤ b ∧ b < 0xC0) :
    utf8 (64 * (a - 0xC0) + (b - 0x80)) = [a, b] := by
  have hfirst : 0xC0 + (64 * (a - 0xC0) + (b - 0x80)) / 64 = a := by omega
  have hsecond : 0x80 + (64 * (a - 0xC0) + (b - 0x80)) % 64 = b := by omega
  unfold utf8
  rw [if_neg (by omega), if_pos (by omega), hfirst, hsecond]

theorem utf8_three {a b c : Nat} (ha : 0xE0 ≤ a ∧ a < 0xF0) (hb : 0x80 ≤ b ∧ b < 0xC0)
    (hc : 0x80 ≤ c ∧ c < 0xC0)
    (hn : 0x800 ≤ 4096 * (a - 0xE0) + 64 * (b - 0x80) + (c - 0x80)) :
    utf8 (4096 * (a - 0xE0) + 64 * (b - 0x80) + (c - 0x80)) = [a, b, c] := by
  generalize hcode : 4096 * (a - 0xE0) + 64 * (b - 0x80) + (c - 0x80) = n at hn ⊢
  have hfirst : 0xE0 + n / 4096 = a := by omega
  have hsecond : 0x80 + n / 64 % 64 = b := by omega
  have hthird : 0x80 + n % 64 = c := by omega
  unfold utf8
  rw [if_neg (by omega), if_neg (by omega), if_pos (by omega), hfirst, hsecond, hthird]

theorem utf8_four {a b c d : Nat} (ha : 0xF0 ≤ a ∧ a < 0xF5) (hb : 0x80 ≤ b ∧ b < 0xC0)
    (hc : 0x80 ≤ c ∧ c < 0xC0) (hd : 0x80 ≤ d ∧ d < 0xC0)
    (hn : 0x10000 ≤ 262144 * (a - 0xF0) + 4096 * (b - 0x80) + 64 * (c - 0x80) + (d - 0x80)) :
    utf8 (262144 * (a - 0xF0) + 4096 * (b - 0x80) + 64 * (c - 0x80) + (d - 0x80)) =
      [a, b, c, d] := by
  generalize hcode :
    262144 * (a - 0xF0) + 4096 * (b - 0x80) + 64 * (c - 0x80) + (d - 0x80) = n at hn ⊢
  have hfirst : 0xF0 + n / 262144 = a := by omega
  have hsecond : 0x80 + n / 4096 % 64 = b := by omega
  have hthird : 0x80 + n / 64 % 64 = c := by omega
  have hfourth : 0x80 + n % 64 = d := by omega
  unfold utf8
  rw [if_neg (by omega), if_neg (by omega), if_neg (by omega), hfirst, hsecond, hthird,
    hfourth]

theorem encodeUtf8_of_decodeUtf8 {bytes : List Nat} {text : Points}
    (h : decodeUtf8 bytes = some text) : encodeUtf8 text = bytes := by
  fun_induction decodeUtf8 bytes generalizing text with
  | case1 =>
      cases h
      rfl
  | case2 a rest hone ih =>
      rcases Option.map_eq_some_iff.mp h with ⟨tail, htail, rfl⟩
      rw [encodeUtf8_cons (by omega), ih htail]
      unfold utf8
      rw [if_pos hone]
      rfl
  | case3 a hone htwo b rest hb ih =>
      rcases Option.map_eq_some_iff.mp h with ⟨tail, htail, rfl⟩
      rw [isTail_iff] at hb
      rw [encodeUtf8_cons (by omega), ih htail, utf8_two htwo hb]
      rfl
  | case6 a hone htwo hthree b c rest n hn =>
      rename_i ih
      rcases Option.map_eq_some_iff.mp h with ⟨tail, htail, rfl⟩
      rw [Bool.and_eq_true, Bool.and_eq_true, isTail_iff, isTail_iff, decide_eq_true_eq] at hn
      rw [encodeUtf8_cons (by omega), ih htail, utf8_three hthree hn.1.1 hn.1.2 hn.2]
      rfl
  | case9 a hone htwo hthree hfour b c d rest n hn =>
      rename_i ih
      rcases Option.map_eq_some_iff.mp h with ⟨tail, htail, rfl⟩
      rw [Bool.and_eq_true, Bool.and_eq_true, Bool.and_eq_true, isTail_iff, isTail_iff,
        isTail_iff, decide_eq_true_eq] at hn
      rw [encodeUtf8_cons hn.2.2, ih htail,
        utf8_four hfour hn.1.1.1 hn.1.1.2 hn.1.2 hn.2.1]
      rfl
  | _ => cases h

/-!
## The encoding of the bytes

`json.loads` guesses the encoding of its bytes from their first four.
-/

inductive Encoding where
  | utf8
  | utf8Sig
  | utf16
  | utf16be
  | utf16le
  | utf32
  | utf32be
  | utf32le
deriving DecidableEq, Repr

def detectEncoding (bytes : List Nat) : Encoding :=
  match bytes with
  | 0x00 :: 0x00 :: 0xFE :: 0xFF :: _ => .utf32
  | 0xFF :: 0xFE :: 0x00 :: 0x00 :: _ => .utf32
  | 0xFE :: 0xFF :: _ => .utf16
  | 0xFF :: 0xFE :: _ => .utf16
  | 0xEF :: 0xBB :: 0xBF :: _ => .utf8Sig
  | a :: b :: c :: d :: _ =>
      if a = 0 then (if b = 0 then .utf32be else .utf16be)
      else if b = 0 then (if c = 0 ∧ d = 0 then .utf32le else .utf16le)
      else .utf8
  | [a, b] => if a = 0 then .utf16be else if b = 0 then .utf16le else .utf8
  | _ => .utf8

/-- The text of the bytes; `wide` stands for the decoders of the encodings with wider
units. -/
def decodeBytes (wide : Encoding -> List Nat -> Option Points) (bytes : List Nat) :
    Option Points :=
  match detectEncoding bytes with
  | .utf8 => decodeUtf8 bytes
  | .utf8Sig => decodeUtf8 (bytes.drop 3)
  | other => wide other bytes

theorem detectEncoding_object (rest : List Nat) :
    detectEncoding (0x7B :: 0x22 :: rest) = .utf8 := by
  match rest with
  | [] => rfl
  | [_] => rfl
  | _ :: _ :: _ => rfl

end Ump.Codec
