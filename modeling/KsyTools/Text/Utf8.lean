/-
# UTF-8

Text is stored in files and in percent-encoded addresses as UTF-8.  Reading is strict: the first
byte sequence that encodes no character is an error that names its place, except where the caller
asks for bad sequences to be replaced by U+FFFD.
-/
import KsyTools.Text.Quoted

namespace KsyTools.Text

/-- What is wrong with a byte sequence. -/
inductive Utf8Fault where
  | startByte
  | continuation
  | endOfData
  deriving Repr, DecidableEq

/-- The wording of a fault. -/
def Utf8Fault.message : Utf8Fault → String
  | .startByte => "invalid start byte"
  | .continuation => "invalid continuation byte"
  | .endOfData => "unexpected end of data"

/-- A byte sequence that encodes no character: its first byte, its place and its length. -/
structure Utf8Error where
  byte : UInt8
  start : Nat
  length : Nat
  fault : Utf8Fault
  deriving Repr, DecidableEq

/-- The wording of a decoding error: one byte is shown, several are given by their places. -/
def Utf8Error.message (e : Utf8Error) : String :=
  let place :=
    if e.length = 1 then
      s!"byte 0x{String.ofList (hexDigits 2 e.byte.toNat)} in position {e.start}"
    else s!"bytes in position {e.start}-{e.start + e.length - 1}"
  s!"'utf-8' codec can't decode {place}: {e.fault.message}"

/-- What stands at the start of a byte sequence: a character or a fault, with the number of bytes
that it takes beyond the first. -/
inductive Utf8Head where
  | char (c : Char) (more : Nat)
  | bad (fault : Utf8Fault) (more : Nat)
  deriving Repr, DecidableEq

/-- The bytes that may follow the first byte of a sequence. -/
def isContinuation (b : Nat) : Bool :=
  0x80 ≤ b && b < 0xc0

/-- The range that the second byte has to be in after a given first byte of three or four. -/
def secondByteOk (first second : Nat) : Bool :=
  isContinuation second &&
    (if first = 0xe0 then 0xa0 ≤ second
     else if first = 0xed then second < 0xa0
     else if first = 0xf0 then 0x90 ≤ second
     else if first = 0xf4 then second < 0x90
     else true)

/-- Reads the sequence that starts with the byte `first`. -/
def utf8Head (first : Nat) (rest : List Nat) : Utf8Head :=
  if first < 0x80 then .char (Char.ofNat first) 0
  else if first < 0xc2 then .bad .startByte 0
  else if first < 0xe0 then
    match rest with
    | [] => .bad .endOfData 0
    | b :: _ =>
      if isContinuation b then .char (Char.ofNat ((first - 0xc0) * 64 + (b - 0x80))) 1
      else .bad .continuation 0
  else if first < 0xf0 then
    match rest with
    | [] => .bad .endOfData 0
    | b :: rest =>
      if !secondByteOk first b then .bad .continuation 0
      else
        match rest with
        | [] => .bad .endOfData 1
        | c :: _ =>
          if isContinuation c then
            .char (Char.ofNat ((first - 0xe0) * 4096 + (b - 0x80) * 64 + (c - 0x80))) 2
          else .bad .continuation 1
  else if first < 0xf5 then
    match rest with
    | [] => .bad .endOfData 0
    | b :: rest =>
      if !secondByteOk first b then .bad .continuation 0
      else
        match rest with
        | [] => .bad .endOfData 1
        | c :: rest =>
          if !isContinuation c then .bad .continuation 1
          else
            match rest with
            | [] => .bad .endOfData 2
            | d :: _ =>
              if isContinuation d then
                .char (Char.ofNat ((first - 0xf0) * 262144 + (b - 0x80) * 4096 +
                  (c - 0x80) * 64 + (d - 0x80))) 3
              else .bad .continuation 2
  else .bad .startByte 0

/-- Decodes the rest of a text that starts at byte `start`. -/
def decodeUtf8From (start : Nat) : List UInt8 → Except Utf8Error (List Char)
  | [] => .ok []
  | first :: rest =>
    match utf8Head first.toNat ((rest.take 3).map UInt8.toNat) with
    | .bad fault more => .error ⟨first, start, more + 1, fault⟩
    | .char c more => (decodeUtf8From (start + more + 1) (rest.drop more)).map (c :: ·)
  termination_by bytes => bytes.length
  decreasing_by simp only [List.length_drop, List.length_cons]; omega

/-- Decodes a whole text, or says what is wrong with it. -/
def decodeUtf8 (bytes : List UInt8) : Except Utf8Error String :=
  (decodeUtf8From 0 bytes).map String.ofList

/-- Decodes a text, with U+FFFD for each sequence that encodes no character. -/
def decodeUtf8Lossy : List UInt8 → List Char
  | [] => []
  | first :: rest =>
    match utf8Head first.toNat ((rest.take 3).map UInt8.toNat) with
    | .bad _ more => '\ufffd' :: decodeUtf8Lossy (rest.drop more)
    | .char c more => c :: decodeUtf8Lossy (rest.drop more)
  termination_by bytes => bytes.length
  decreasing_by all_goals simp only [List.length_drop, List.length_cons]; omega

/-- The UTF-8 form of a text. -/
def encodeUtf8 (cs : List Char) : List UInt8 :=
  cs.flatMap String.utf8EncodeChar

end KsyTools.Text
