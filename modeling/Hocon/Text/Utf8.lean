import Hocon.Text.Display

/-!
# UTF-8

A character of more than one octet starts with a lead octet that says how many octets are still
owed. Each octet owed lies in a range: the first one may not make a number that has a shorter form,
a surrogate or a number beyond the last code point; all others have the whole range.

`Utf8.decode` reads a sequence of octets from the front. The first octet that fits nowhere ends the
reading with a `Utf8.Fault`, which holds the octets of the character that was being read, or the
octet itself if none was.
-/

namespace Hocon

namespace Utf8

/-- Why octets are no UTF-8. -/
inductive Flaw where
  /-- An octet starts no character. -/
  | start
  /-- An octet does not continue the character in front of it. -/
  | continuation
  /-- The octets end inside of a character. -/
  | ending
  deriving DecidableEq, Repr

/-- The wording of a flaw. -/
def Flaw.message : Flaw → String
  | start => "invalid start byte"
  | continuation => "invalid continuation byte"
  | ending => "unexpected end of data"

/-- Octets that are no UTF-8. -/
structure Fault where
  /-- How many octets stand before them. -/
  position : Nat
  /-- The first of them. -/
  first : UInt8
  /-- How many of them there are. -/
  count : Nat
  /-- What is wrong with them. -/
  flaw : Flaw
  deriving DecidableEq, Repr

/-- The wording of a fault. A single octet is shown, several are only located. -/
def Fault.message (e : Fault) : String :=
  "'utf-8' codec can't decode " ++
    (if e.count = 1 then
      "byte 0x" ++ String.ofList (hexDigits 2 e.first.toNat) ++ " in position " ++
        toString e.position
    else
      "bytes in position " ++ toString e.position ++ "-" ++
        toString (e.position + e.count - 1)) ++
    ": " ++ e.flaw.message

/-- A character of which some octets have been read. -/
structure Pending where
  /-- Where its first octet stands. -/
  position : Nat
  /-- Its first octet. -/
  first : UInt8
  /-- How many octets have been read. -/
  count : Nat
  /-- The number that they make. -/
  code : Nat
  /-- How many octets are owed behind the next one. -/
  owed : Nat
  /-- The least that the next octet may be. -/
  low : Nat := 0x80
  /-- The greatest that the next octet may be. -/
  high : Nat := 0xBF

/-- The fault of a character that is not continued. -/
def Pending.fault (p : Pending) (flaw : Flaw) : Fault :=
  { position := p.position, first := p.first, count := p.count, flaw }

/-- What a lead octet starts. -/
def lead? (position : Nat) (b : UInt8) : Option Pending :=
  let n := b.toNat
  let pending (code owed : Nat) : Pending := { position, first := b, count := 1, code, owed }
  if n < 0xC2 then none
  else if n < 0xE0 then some (pending (n - 0xC0) 0)
  else if n = 0xE0 then some { pending 0 1 with low := 0xA0 }
  else if n = 0xED then some { pending 0xD 1 with high := 0x9F }
  else if n < 0xF0 then some (pending (n - 0xE0) 1)
  else if n = 0xF0 then some { pending 0 2 with low := 0x90 }
  else if n < 0xF4 then some (pending (n - 0xF0) 2)
  else if n = 0xF4 then some { pending 4 2 with high := 0x8F }
  else none

/-- The characters that octets stand for, the first of them at a position, behind the octets of a
character that is not complete, if there is one. -/
def decodeFrom (position : Nat) : Option Pending → List UInt8 → Except Fault (List Char)
  | none, [] => .ok []
  | some p, [] => .error (p.fault .ending)
  | none, b :: rest =>
    if b < 0x80 then do return Char.ofNat b.toNat :: (← decodeFrom (position + 1) none rest)
    else match lead? position b with
      | some p => decodeFrom (position + 1) (some p) rest
      | none => .error { position, first := b, count := 1, flaw := .start }
  | some p, b :: rest =>
    if b.toNat < p.low ∨ p.high < b.toNat then .error (p.fault .continuation)
    else
      let code := p.code * 64 + (b.toNat - 0x80)
      match p.owed with
      | 0 => do return Char.ofNat code :: (← decodeFrom (position + 1) none rest)
      | owed + 1 =>
        let next : Pending :=
          { position := p.position, first := p.first, count := p.count + 1, code, owed }
        decodeFrom (position + 1) (some next) rest

/-- The characters that octets stand for. -/
def decode (octets : List UInt8) : Except Fault (List Char) :=
  decodeFrom 0 none octets

end Utf8

end Hocon
