/-!
Strict UTF-8. A sequence is refused at the first byte that cannot continue it; overlong forms,
surrogates and code points beyond the last plane are refused at the byte that makes them such.
The reported bytes are those of the sequence that were well formed up to there.
-/
namespace Formulary

namespace Utf8

inductive Reason where
  | invalidStart
  | invalidContinuation
  | unexpectedEnd
  deriving DecidableEq, Repr

/-- The first byte of a refused sequence, and the positions at which the sequence begins and its
well-formed part ends. -/
structure DecodeFault where
  lead : UInt8
  start : Nat
  stop : Nat
  reason : Reason
  deriving DecidableEq, Repr

/-- A sequence that is not complete yet: the next byte must lie between two bounds. -/
structure Pending where
  lead : UInt8
  start : Nat
  value : Nat
  missing : Nat
  low : UInt8
  high : UInt8

/-- What a byte outside ASCII begins. -/
def begin? (position : Nat) (b : UInt8) : Option Pending :=
  if b < 0xc2 then none
  else if b < 0xe0 then some ⟨b, position, b.toNat - 0xc0, 1, 0x80, 0xbf⟩
  else if b < 0xf0 then
    some ⟨b, position, b.toNat - 0xe0, 2, if b = 0xe0 then 0xa0 else 0x80,
      if b = 0xed then 0x9f else 0xbf⟩
  else if b < 0xf5 then
    some ⟨b, position, b.toNat - 0xf0, 3, if b = 0xf0 then 0x90 else 0x80,
      if b = 0xf4 then 0x8f else 0xbf⟩
  else none

/-- Decodes bytes from a position on, where a sequence may already have begun. -/
def decodeFrom (position : Nat) : Option Pending → List UInt8 → Except DecodeFault (List Char)
  | none, [] => .ok []
  | some p, [] => .error ⟨p.lead, p.start, position, .unexpectedEnd⟩
  | none, b :: rest =>
    if b < 0x80 then (decodeFrom (position + 1) none rest).map (Char.ofNat b.toNat :: ·)
    else match begin? position b with
      | none => .error ⟨b, position, position + 1, .invalidStart⟩
      | some p => decodeFrom (position + 1) (some p) rest
  | some p, b :: rest =>
    if p.low ≤ b ∧ b ≤ p.high then
      let value := p.value * 64 + (b.toNat - 0x80)
      if p.missing = 1 then (decodeFrom (position + 1) none rest).map (Char.ofNat value :: ·)
      else decodeFrom (position + 1) (some ⟨p.lead, p.start, value, p.missing - 1, 0x80, 0xbf⟩) rest
    else .error ⟨p.lead, p.start, position, .invalidContinuation⟩

def decode (bytes : List UInt8) : Except DecodeFault (List Char) := decodeFrom 0 none bytes

def encode (text : List Char) : List UInt8 := text.flatMap String.utf8EncodeChar

end Utf8

end Formulary
