import BatchScript.Text.Basic

/-!
# UTF-8

Texts as bytes and back. Bytes that are no text are refused with the place and the cause of the
first fault: a byte that starts no character, a byte that does not continue the character before
it, or an end in the middle of a character. The bytes at fault are those that could still have
begun a character.

A surrogate has no bytes, so a text that holds one is refused too, except that in the path of a file
some surrogates stand for the single bytes that are no text.
-/

namespace BatchScript.Utf8

/-- Why bytes are no text. -/
inductive Cause where
  | invalidStart
  | invalidContinuation
  | unexpectedEnd
  deriving DecidableEq, Repr

/-- The first fault of a sequence of bytes: where it starts, its bytes, and its cause. -/
structure Fault where
  position : Nat
  bytes : List UInt8
  cause : Cause
  deriving DecidableEq, Repr

/-- The wording of a cause. -/
def Cause.message : Cause → String
  | .invalidStart => "invalid start byte"
  | .invalidContinuation => "invalid continuation byte"
  | .unexpectedEnd => "unexpected end of data"

/-- The wording of a fault: one byte is shown, several are only located. -/
def Fault.message (f : Fault) : Text :=
  let place : Text := match f.bytes with
    | [b] => "byte 0x".text ++ Text.hex 2 b.toNat ++ " in position ".text ++ Text.ofInt f.position
    | bs => "bytes in position ".text ++ Text.ofInt f.position ++ [char '-'] ++
        Text.ofInt (f.position + bs.length - 1)
  "'utf-8' codec can't decode ".text ++ place ++ ": ".text ++ f.cause.message.text

/-- Surrogates that have no bytes: where the first of them stands in its text, its number among the
surrogates, and how many stand there in a row. -/
structure Surrogates where
  position : Nat
  first : Fin 0x800
  count : Nat
  deriving DecidableEq, Repr

/-- The wording: one surrogate is shown, several are only located. -/
def Surrogates.message (s : Surrogates) : Text :=
  let place : Text :=
    if s.count = 1 then
      "character '\\u".text ++ Text.hex 4 (CodePoint.surrogate s.first).toNat ++
        "' in position ".text ++ Text.ofInt s.position
    else
      "characters in position ".text ++ Text.ofInt s.position ++ [char '-'] ++
        Text.ofInt (s.position + s.count - 1)
  "'utf-8' codec can't encode ".text ++ place ++ ": surrogates not allowed".text

/-- The bytes of a text that follows `position` code points, when `bytes?` gives those of its
surrogates, or the first surrogates without bytes. -/
def encodeFrom (bytes? : Fin 0x800 → Option UInt8) (position : Nat) :
    Text → Except Surrogates (List UInt8)
  | [] => .ok []
  | char c :: cs => (encodeFrom bytes? (position + 1) cs).map (String.utf8EncodeChar c ++ ·)
  | .surrogate n :: cs =>
    match bytes? n with
    | some b => (encodeFrom bytes? (position + 1) cs).map (b :: ·)
    | none => .error ⟨position, n, 1 + (cs.takeWhile CodePoint.isSurrogate).length⟩

/-- The bytes of a text. -/
def encode (t : Text) : Except Surrogates (List UInt8) :=
  encodeFrom (fun _ => none) 0 t

/-- The byte above `0x7F` that a surrogate stands for in a path. -/
def pathByte? (n : Fin 0x800) : Option UInt8 :=
  if 0x480 ≤ n.val ∧ n.val < 0x500 then some (UInt8.ofNat (n.val - 0x400)) else none

/-- The bytes of a path. -/
def encodePath (t : Text) : Except Surrogates (List UInt8) :=
  encodeFrom pathByte? 0 t

/-- A byte that continues a character. -/
def isTail (b : UInt8) : Bool :=
  0x80 ≤ b && b ≤ 0xBF

/-- Whether the second byte of a character may follow its first one. It is a continuation byte,
and it does not make the character overlong, a surrogate or larger than the last code point. -/
def isSecond (first second : UInt8) : Bool :=
  isTail second &&
    (first != 0xE0 || 0xA0 ≤ second) && (first != 0xED || second ≤ 0x9F) &&
    (first != 0xF0 || 0x90 ≤ second) && (first != 0xF4 || second ≤ 0x8F)

/-- How many bytes a character with the given first byte has; none for a byte that starts no
character. -/
def width? (first : UInt8) : Option Nat :=
  if first ≤ 0x7F then some 1
  else if 0xC2 ≤ first && first ≤ 0xDF then some 2
  else if 0xE0 ≤ first && first ≤ 0xEF then some 3
  else if 0xF0 ≤ first && first ≤ 0xF4 then some 4
  else none

/-- The payload of a continuation byte. -/
def payload (b : UInt8) : Nat :=
  b.toNat % 0x40

/-- What stands at the front of a sequence of bytes. -/
inductive Front where
  /-- A whole character and the bytes behind it. -/
  | char (c : Char) (rest : List UInt8)
  /-- The first so many bytes are at fault. -/
  | fault (count : Nat) (cause : Cause)

/-- The continuation of a character whose second byte is still to come. A code point gathers in
`point` while `owed` bytes are missing and `seen` have been read. -/
def continueChar (seen point : Nat) : (owed : Nat) → List UInt8 → Front
  | 0, bs => .char (Char.ofNat point) bs
  | _ + 1, [] => .fault seen .unexpectedEnd
  | owed + 1, b :: bs =>
    if isTail b then continueChar (seen + 1) (point * 0x40 + payload b) owed bs
    else .fault seen .invalidContinuation

/-- The front of a sequence that starts with the given byte. -/
def frontOf (first : UInt8) (bs : List UInt8) : Front :=
  match width? first with
  | none => .fault 1 .invalidStart
  | some 1 => .char (Char.ofNat first.toNat) bs
  | some width =>
    match bs with
    | [] => .fault 1 .unexpectedEnd
    | second :: rest =>
      if isSecond first second then
        let lead := first.toNat % (0x80 >>> width)
        continueChar 2 (lead * 0x40 + payload second) (width - 2) rest
      else .fault 1 .invalidContinuation

/-- A continued character leaves no more bytes than there were. -/
theorem length_continueChar_le {seen point owed : Nat} {bs rest : List UInt8} {c : Char}
    (h : continueChar seen point owed bs = .char c rest) : rest.length ≤ bs.length := by
  induction owed generalizing seen point bs with
  | zero => simp only [continueChar, Front.char.injEq] at h; simp [h.2]
  | succ owed ih =>
    cases bs with
    | nil => simp [continueChar] at h
    | cons b bs =>
      simp only [continueChar] at h
      split at h
      · have := ih h
        simp only [List.length_cons]
        omega
      · simp at h

/-- The front character takes at least its first byte. -/
theorem length_frontOf_le {first : UInt8} {bs rest : List UInt8} {c : Char}
    (h : frontOf first bs = .char c rest) : rest.length ≤ bs.length := by
  unfold frontOf at h
  split at h
  · simp at h
  · simp only [Front.char.injEq] at h; simp [h.2]
  · split at h
    · simp at h
    · split at h
      · have := length_continueChar_le h
        simp only [List.length_cons]
        omega
      · simp at h

/-- The text of bytes that follow `position` others, or their first fault. -/
def decodeFrom (position : Nat) : List UInt8 → Except Fault Text
  | [] => .ok []
  | b :: bs =>
    match h : frontOf b bs with
    | .fault count cause => .error ⟨position, (b :: bs).take count, cause⟩
    | .char c rest =>
      have := length_frontOf_le h
      (decodeFrom (position + (bs.length + 1 - rest.length)) rest).map (char c :: ·)
  termination_by bs => bs.length
  decreasing_by simp only [List.length_cons]; omega

/-- The text of a sequence of bytes, or its first fault. -/
def decode (bs : List UInt8) : Except Fault Text :=
  decodeFrom 0 bs

end BatchScript.Utf8
