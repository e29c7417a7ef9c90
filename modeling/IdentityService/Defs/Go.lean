import Mathlib.Algebra.Group.Int.Defs
import Mathlib.Algebra.Group.Nat.Defs
import Mathlib.Data.List.Basic

/-! The parts of the Go standard library the service computes with. -/

namespace IdentityService

/-- Nanoseconds since the Unix epoch. -/
abbrev Time := Int

abbrev Bytes := List UInt8

namespace Go

def second : Time := 1000000000
def minute : Time := 60 * second
def hour : Time := 60 * minute

def unix (t : Time) : Int := t / second

def int64 (n : Int) : Int := (n + 2 ^ 63) % 2 ^ 64 - 2 ^ 63

def isSpace (c : Char) : Bool :=
  c.toNat ∈ [0x09, 0x0A, 0x0B, 0x0C, 0x0D, 0x20, 0x85, 0xA0, 0x1680, 0x2028, 0x2029, 0x202F,
    0x205F, 0x3000] || (0x2000 ≤ c.toNat && c.toNat ≤ 0x200A)

def utf8 (s : String) : Bytes := s.toList.flatMap String.utf8EncodeChar

def ascii (s : String) : Bytes := s.toList.map (fun c => UInt8.ofNat c.toNat)

/-- `strings.TrimSpace` on text that is valid UTF-8. -/
def trimSpace (s : String) : String :=
  String.ofList ((s.toList.dropWhile isSpace).reverse.dropWhile isSpace).reverse

/-- The encoded white space rune a byte string starts with, if any, cut off. -/
def cutSpace : Bytes → Option Bytes
  | 0xC2 :: b :: rest => if b = 0x85 ∨ b = 0xA0 then some rest else none
  | 0xE1 :: 0x9A :: 0x80 :: rest => some rest
  | 0xE2 :: 0x80 :: b :: rest =>
    if (0x80 ≤ b ∧ b ≤ 0x8A) ∨ b = 0xA8 ∨ b = 0xA9 ∨ b = 0xAF then some rest else none
  | 0xE2 :: 0x81 :: 0x9F :: rest => some rest
  | 0xE3 :: 0x80 :: 0x80 :: rest => some rest
  | b :: rest => if b ∈ [0x09, 0x0A, 0x0B, 0x0C, 0x0D, 0x20] then some rest else none
  | [] => none

def cutSpaceReversed : Bytes → Option Bytes
  | 0x85 :: 0xC2 :: rest => some rest
  | 0xA0 :: 0xC2 :: rest => some rest
  | 0x80 :: 0x9A :: 0xE1 :: rest => some rest
  | 0x9F :: 0x81 :: 0xE2 :: rest => some rest
  | 0x80 :: 0x80 :: 0xE3 :: rest => some rest
  | b :: 0x80 :: 0xE2 :: rest =>
    if (0x80 ≤ b ∧ b ≤ 0x8A) ∨ b = 0xA8 ∨ b = 0xA9 ∨ b = 0xAF then some rest
    else if b ∈ [0x09, 0x0A, 0x0B, 0x0C, 0x0D, 0x20] then some (0x80 :: 0xE2 :: rest) else none
  | b :: rest => if b ∈ [0x09, 0x0A, 0x0B, 0x0C, 0x0D, 0x20] then some rest else none
  | [] => none

def cutWhile (cut : Bytes → Option Bytes) : Nat → Bytes → Bytes
  | 0, b => b
  | n + 1, b =>
    match cut b with
    | some rest => cutWhile cut n rest
    | none => b

def trimSpaceBytes (b : Bytes) : Bytes :=
  let left := cutWhile cutSpace b.length b
  (cutWhile cutSpaceReversed left.length left.reverse).reverse

def isContinuation (b : UInt8) : Bool := 0x80 ≤ b && b ≤ 0xBF

def cutRune : Bytes → Option Bytes
  | [] => none
  | b0 :: rest =>
    if b0 < 0x80 then some rest
    else if 0xC2 ≤ b0 ∧ b0 ≤ 0xDF then
      match rest with
      | b1 :: rest => if isContinuation b1 then some rest else none
      | _ => none
    else if 0xE0 ≤ b0 ∧ b0 ≤ 0xEF then
      match rest with
      | b1 :: b2 :: rest =>
        if isContinuation b1 ∧ isContinuation b2 ∧ (b0 = 0xE0 → 0xA0 ≤ b1) ∧
          (b0 = 0xED → b1 ≤ 0x9F) then some rest else none
      | _ => none
    else if 0xF0 ≤ b0 ∧ b0 ≤ 0xF4 then
      match rest with
      | b1 :: b2 :: b3 :: rest =>
        if isContinuation b1 ∧ isContinuation b2 ∧ isContinuation b3 ∧ (b0 = 0xF0 → 0x90 ≤ b1) ∧
          (b0 = 0xF4 → b1 ≤ 0x8F) then some rest else none
      | _ => none
    else none

/-- `utf8.ValidString`. -/
def validString (b : Bytes) : Bool := cutWhile cutRune b.length b = []

end Go

def truncateUTF8 (value : Bytes) (maxBytes : Nat) : Bytes :=
  if value.length ≤ maxBytes then value else value.take (shrink maxBytes)
where
  shrink : Nat → Nat
    | 0 => 0
    | n + 1 => if Go.validString (value.take (n + 1)) then n + 1 else shrink n

end IdentityService
