/-
# RosInterface.Files.Utf8 -- bytes and code points

`decode` reads bytes as UTF-8 and refuses what is not: a byte that starts no
sequence, a byte that does not continue the sequence it stands in, and an end in
the middle of one.  The fault is placed at the first byte of the sequence.  The
second byte is checked as strictly as the first asks, so overlong forms,
surrogates and numbers past the last code point are all refused there.

`encode?` writes a text back; a surrogate has no bytes.  The names of files are bytes too, but
not always UTF-8: a byte of a name that is none is read as a surrogate of its own, and
`nameBytes?` turns it back.
-/
import RosInterface.Text.CodePoint

set_option autoImplicit false

namespace RosInterface

/-- What is wrong with a byte sequence. -/
inductive Utf8Reason where
  | start
  | continuation
  | truncated
  deriving DecidableEq

def Utf8Reason.text : Utf8Reason → Text
  | .start => "invalid start byte"
  | .continuation => "invalid continuation byte"
  | .truncated => "unexpected end of data"

/-- A fault and the position of the sequence that has it. -/
structure Utf8Fault where
  reason : Utf8Reason
  position : Nat
  deriving DecidableEq

namespace Utf8

/-- The code point of a number below `0x110000`. -/
def codePoint (n : Nat) : CodePoint := (CodePoint.ofNat? n).getD default

def isTail (b : Nat) : Bool := 0x80 ≤ b && b ≤ 0xBF

/-- Whether `b` may be second in a sequence that starts with `a`. -/
def isSecond (a b : Nat) : Bool :=
  isTail b && (a != 0xE0 || 0xA0 ≤ b) && (a != 0xED || b ≤ 0x9F) && (a != 0xF0 || 0x90 ≤ b) &&
    (a != 0xF4 || b ≤ 0x8F)

/-- Decode bytes of which the first stands at `position`. -/
def decodeFrom (position : Nat) : List UInt8 → Except Utf8Fault Text
  | [] => .ok []
  | first :: rest =>
      let a := first.toNat
      let fault (reason : Utf8Reason) : Except Utf8Fault Text := .error ⟨reason, position⟩
      if a < 0x80 then (decodeFrom (position + 1) rest).map (codePoint a :: ·)
      else if a < 0xC2 ∨ 0xF4 < a then fault .start
      else
        match rest with
        | [] => fault .truncated
        | second :: rest =>
            let b := second.toNat
            if !isSecond a b then fault .continuation
            else if a < 0xE0 then
              (decodeFrom (position + 2) rest).map
                (codePoint ((a - 0xC0) * 0x40 + (b - 0x80)) :: ·)
            else
              match rest with
              | [] => fault .truncated
              | third :: rest =>
                  let c := third.toNat
                  if !isTail c then fault .continuation
                  else if a < 0xF0 then
                    (decodeFrom (position + 3) rest).map
                      (codePoint (((a - 0xE0) * 0x40 + (b - 0x80)) * 0x40 + (c - 0x80)) :: ·)
                  else
                    match rest with
                    | [] => fault .truncated
                    | fourth :: rest =>
                        let d := fourth.toNat
                        if !isTail d then fault .continuation
                        else
                          (decodeFrom (position + 4) rest).map
                            (codePoint ((((a - 0xF0) * 0x40 + (b - 0x80)) * 0x40 + (c - 0x80)) *
                              0x40 + (d - 0x80)) :: ·)

def decode (bytes : List UInt8) : Except Utf8Fault Text := decodeFrom 0 bytes

/-- The bytes of a code point that is no surrogate. -/
def bytesOf (c : CodePoint) : List UInt8 :=
  let n := c.val
  let tail (k : Nat) : UInt8 := .ofNat (0x80 + n / Nat.pow 0x40 k % 0x40)
  if n < 0x80 then [.ofNat n]
  else if n < 0x800 then [.ofNat (0xC0 + n / 0x40), tail 0]
  else if n < 0x10000 then [.ofNat (0xE0 + n / 0x1000), tail 1, tail 0]
  else [.ofNat (0xF0 + n / 0x40000), tail 2, tail 1, tail 0]

def encode? (s : Text) : Option (List UInt8) :=
  if s.any (·.isSurrogate) then none else some (s.flatMap bytesOf)

/-- The bytes of a code point in the name of a file.  The surrogates from `DC80` to `DCFF` are
the bytes from `80` to `FF`, and the other surrogates have none. -/
def nameBytes? (c : CodePoint) : Option (List UInt8) :=
  if 0xDC80 ≤ c.val && c.val ≤ 0xDCFF then some [.ofNat (c.val - 0xDC00)]
  else if c.isSurrogate then none
  else some (bytesOf c)

end Utf8

end RosInterface
