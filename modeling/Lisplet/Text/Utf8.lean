/-!
# Text/Utf8 — strict reading of encoded text

A file is a row of bytes.  Reading it decodes UTF-8 strictly: a byte that starts no character, a
byte that does not go on with one, and a character cut off by the end are faults, each with the
bytes it blames.  Bytes come in blocks, and a fault counts its position from the first byte that
was not decoded when its block arrived.  The first two bytes of a surrogate are faulty for their
second byte, but this comes out only when more bytes arrive, or none can.
-/

namespace Lisplet.Utf8

/-- Why bytes are not UTF-8. -/
inductive Reason where
  /-- No character starts with the byte. -/
  | badStart
  /-- The character that was started does not go on with the next byte. -/
  | badContinuation
  /-- The bytes end inside a character. -/
  | cutOff
deriving DecidableEq, Repr

/-- The wording of a reason. -/
def Reason.text : Reason → String
  | .badStart => "invalid start byte"
  | .badContinuation => "invalid continuation byte"
  | .cutOff => "unexpected end of data"

/-- Bytes that are not UTF-8: `length` of them from a position on, the first being `byte`. -/
structure Fault where
  byte : UInt8
  position : Nat
  length : Nat
  reason : Reason
deriving DecidableEq, Repr

/-- The wording of a fault. -/
def Fault.text (f : Fault) : String :=
  let place :=
    if f.length = 1 then
      "byte 0x" ++ String.ofList (Nat.toDigits 16 f.byte.toNat) ++ " in position "
        ++ toString f.position
    else "bytes in position " ++ toString f.position ++ "-" ++ toString (f.position + f.length - 1)
  "'utf-8' codec can't decode " ++ place ++ ": " ++ f.reason.text

/-! ## One character -/

/-- Whether a byte may go on with any character. -/
def isTail (b : UInt8) : Bool := 0x80 ≤ b && b ≤ 0xBF

/-- Whether a byte may be the second of a character that starts with `first`. -/
def isSecond (first b : UInt8) : Bool :=
  if first = 0xE0 then 0xA0 ≤ b && b ≤ 0xBF
  else if first = 0xED then 0x80 ≤ b && b ≤ 0x9F
  else if first = 0xF0 then 0x90 ≤ b && b ≤ 0xBF
  else if first = 0xF4 then 0x80 ≤ b && b ≤ 0x8F
  else isTail b

/-- Whether two bytes would start a surrogate, which is no character. -/
def startsSurrogate (first second : UInt8) : Bool := first = 0xED && 0xA0 ≤ second && second ≤ 0xBF

/-- The number of bytes of a character that starts with a byte, none if no character does. -/
def width (first : UInt8) : Option Nat :=
  if first ≤ 0x7F then some 1
  else if 0xC2 ≤ first && first ≤ 0xDF then some 2
  else if 0xE0 ≤ first && first ≤ 0xEF then some 3
  else if 0xF0 ≤ first && first ≤ 0xF4 then some 4
  else none

/-- The bits that the first byte of a character of some width gives to it. -/
def leadBits (first : UInt8) : Nat → Nat
  | 1 => first.toNat
  | 2 => first.toNat % 0x20
  | 3 => first.toNat % 0x10
  | _ => first.toNat % 0x08

/-- What the front of some bytes is. -/
inductive Front where
  /-- A whole character, and the bytes after it. -/
  | whole (c : Char) (rest : List UInt8)
  /-- The beginning of a character or of a surrogate, which the bytes end in. -/
  | partly
  /-- No character, to blame on that many bytes. -/
  | bad (length : Nat) (reason : Reason)

/-- Takes `missing` more bytes into a character whose bits so far are `bits`, after `taken` bytes
of it. -/
def takeTails (bits taken : Nat) : Nat → List UInt8 → Front
  | 0, rest => .whole (Char.ofNat bits) rest
  | _ + 1, [] => .partly
  | missing + 1, b :: rest =>
    if isTail b then takeTails (bits * 0x40 + b.toNat % 0x40) (taken + 1) missing rest
    else .bad taken .badContinuation

/-- The front of bytes that are not empty. -/
def front (first : UInt8) (rest : List UInt8) : Front :=
  match width first with
  | none => .bad 1 .badStart
  | some 1 => .whole (Char.ofNat first.toNat) rest
  | some w =>
    match rest with
    | [] => .partly
    | second :: rest =>
      if isSecond first second then
        takeTails (leadBits first w * 0x40 + second.toNat % 0x40) 2 (w - 2) rest
      else if startsSurrogate first second && rest.isEmpty then .partly
      else .bad 1 .badContinuation

/-! ## All characters -/

theorem length_le_of_takeTails {bits taken missing : Nat} {bs rest : List UInt8} {c : Char}
    (h : takeTails bits taken missing bs = .whole c rest) : rest.length ≤ bs.length := by
  fun_induction takeTails bits taken missing bs with
  | case1 =>
    simp only [Front.whole.injEq] at h
    simp [h.2]
  | case2 => simp at h
  | case3 _ _ _ _ _ _ ih =>
    have := ih h
    simp only [List.length_cons]
    omega
  | case4 => simp at h

/-- A whole character takes bytes away. -/
theorem length_lt_of_front {first : UInt8} {bs rest : List UInt8} {c : Char}
    (h : front first bs = .whole c rest) : rest.length < (first :: bs).length := by
  unfold front at h
  split at h
  · simp at h
  · simp only [Front.whole.injEq] at h
    simp [h.2]
  · split at h
    · simp at h
    · split at h
      · have := length_le_of_takeTails h
        simp only [List.length_cons]
        omega
      · split at h <;> simp at h

/-- The characters of bytes, in reverse after those in `done`, up to the beginning of a character
that the bytes end in; `position` counts the bytes before. -/
def decodeFrom (done : List Char) (position : Nat) (bs : List UInt8) :
    Except Fault (List Char × List UInt8) :=
  match bs with
  | [] => .ok (done, [])
  | first :: rest =>
    match _ : front first rest with
    | .whole c after =>
      decodeFrom (c :: done) (position + ((first :: rest).length - after.length)) after
    | .partly => .ok (done, first :: rest)
    | .bad length reason => .error ⟨first, position, length, reason⟩
termination_by bs.length
decreasing_by exact length_lt_of_front ‹_›

/-- The number of bytes in a block. -/
def blockSize : Nat := 8192

/-- The fault of the bytes at a position that begin a character when no more can come, if there are
any. -/
def leftover (position : Nat) : List UInt8 → Option Fault
  | [] => none
  | [first] => some ⟨first, position, 1, .cutOff⟩
  | first :: second :: rest =>
    some (if startsSurrogate first second then ⟨first, position, 1, .badContinuation⟩
      else ⟨first, position, rest.length + 2, .cutOff⟩)

/-- Decodes block after block; `left` holds the bytes of a character that the blocks before ended
in. -/
def decodeBlocks (done : List Char) (left : List UInt8) :
    List (List UInt8) → Except Fault (List Char)
  | [] =>
    match leftover 0 left with
    | none => .ok done.reverse
    | some fault => .error fault
  | block :: blocks =>
    match decodeFrom done 0 (left ++ block) with
    | .error fault => .error fault
    | .ok (done, left) => decodeBlocks done left blocks

/-- The bytes cut into `count` blocks, all of one size but the last. -/
def cut : Nat → List UInt8 → List (List UInt8)
  | 0, _ => []
  | count + 1, bs => bs.take blockSize :: cut count (bs.drop blockSize)

/-- The characters of encoded text that comes as a whole, or the first fault in it. -/
def decodeWhole (bs : List UInt8) : Except Fault (List Char) :=
  match decodeFrom [] 0 bs with
  | .error fault => .error fault
  | .ok (done, left) =>
    match leftover (bs.length - left.length) left with
    | none => .ok done.reverse
    | some fault => .error fault

/-- **The characters of encoded text that comes in blocks**, or the first fault in it. -/
def decode (bs : List UInt8) : Except Fault (List Char) :=
  decodeBlocks [] [] (cut (bs.length / blockSize + 1) bs)

end Lisplet.Utf8
