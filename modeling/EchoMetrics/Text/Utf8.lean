/-! # Reading octets as text

Octets that are no UTF-8 are replaced: each longest run of them that begins a character and cannot
be continued becomes one replacement character. -/

namespace EchoMetrics.Text

/-- What a replaced run is shown as. -/
def replacement : Char := '\uFFFD'

/-- A character of which some octets were read: the bits so far, how many octets are still to
come, and the range in which the next one has to lie. -/
structure Pending where
  bits : Nat
  remaining : Nat
  low : Nat := 0x80
  high : Nat := 0xBF

/-- What the first octet of a character says about it. The narrower ranges rule out overlong forms,
surrogates and code points past the last. -/
inductive Lead
  | whole (c : Char)
  | opens (p : Pending)
  | invalid

def Lead.ofOctet (b : UInt8) : Lead :=
  let n := b.toNat
  if n < 0x80 then .whole (Char.ofNat n)
  else if n < 0xC2 then .invalid
  else if n < 0xE0 then .opens { bits := n - 0xC0, remaining := 1 }
  else if n = 0xE0 then .opens { bits := 0, remaining := 2, low := 0xA0 }
  else if n = 0xED then .opens { bits := 0xD, remaining := 2, high := 0x9F }
  else if n < 0xF0 then .opens { bits := n - 0xE0, remaining := 2 }
  else if n = 0xF0 then .opens { bits := 0, remaining := 3, low := 0x90 }
  else if n < 0xF4 then .opens { bits := n - 0xF0, remaining := 3 }
  else if n = 0xF4 then .opens { bits := 4, remaining := 3, high := 0x8F }
  else .invalid

def Pending.accepts (p : Pending) (b : UInt8) : Bool :=
  p.low ≤ b.toNat && b.toNat ≤ p.high

def Pending.push (p : Pending) (b : UInt8) : Pending :=
  { bits := p.bits * 64 + (b.toNat - 0x80), remaining := p.remaining - 1 }

/-- Decodes the rest of a text, after the octets of an unfinished character. An octet that does not
continue it ends the run and is read afresh. -/
def decodeAfter : Option Pending → List UInt8 → List Char
  | none, [] => []
  | some _, [] => [replacement]
  | none, b :: bs =>
    match Lead.ofOctet b with
    | .whole c => c :: decodeAfter none bs
    | .opens p => decodeAfter (some p) bs
    | .invalid => replacement :: decodeAfter none bs
  | some p, b :: bs =>
    if p.accepts b then
      if p.remaining ≤ 1 then Char.ofNat (p.push b).bits :: decodeAfter none bs
      else decodeAfter (some (p.push b)) bs
    else
      replacement :: match Lead.ofOctet b with
        | .whole c => c :: decodeAfter none bs
        | .opens p => decodeAfter (some p) bs
        | .invalid => replacement :: decodeAfter none bs

def decodeOctets (bs : List UInt8) : String := String.ofList (decodeAfter none bs)

example : decodeAfter none [0x61, 0xE2, 0x82, 0xAC] = ['a', '€'] := by decide
example : decodeAfter none [0xE2, 0x82, 0x41] = [replacement, 'A'] := by decide
example : decodeAfter none [0xED, 0xA0] = [replacement, replacement] := by decide

end EchoMetrics.Text
