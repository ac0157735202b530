/-!
# Reading bytes as text

A file holds text if its bytes are well-formed UTF-8. `decode` reads such bytes, and otherwise names
the first fault: a sequence that cannot be continued, with the number of bytes that were fitting so
far, or one that the end of the file cuts off. `decodeLossy` reads any bytes and puts the
replacement character for each faulty sequence.
-/

namespace Vendoring.Text

/-- The first place at which bytes stop being well-formed UTF-8. -/
inductive Utf8Fault where
  | malformed (width index : Nat)
  | truncated (index : Nat)
deriving DecidableEq

/-- The wording of a fault. -/
def Utf8Fault.message : Utf8Fault → String
  | .malformed width index =>
    "invalid utf-8 sequence of " ++ toString width ++ " bytes from index " ++ toString index
  | .truncated index => "incomplete utf-8 byte sequence from index " ++ toString index

/-- How a sequence of bytes begins: with a character of some width, with bytes that begin none, of
which the given number belong together, or with a character that is cut off. -/
inductive Utf8Front where
  | character (width : Nat)
  | malformed (width : Nat)
  | truncated

/-- Whether the byte continues a character. -/
def isContinuation (b : UInt8) : Bool :=
  0x80 ≤ b && b ≤ 0xbf

/-- Whether the second byte fits the first, for characters of three and four bytes. Ruled out are
overlong forms, surrogates and code points above the last one. -/
def fitsSecond (first second : UInt8) : Bool :=
  if first == 0xe0 then 0xa0 ≤ second && second ≤ 0xbf
  else if first == 0xed then 0x80 ≤ second && second ≤ 0x9f
  else if first == 0xf0 then 0x90 ≤ second && second ≤ 0xbf
  else if first == 0xf4 then 0x80 ≤ second && second ≤ 0x8f
  else isContinuation second

/-- The front of a sequence of bytes, the first of which is given apart. -/
def utf8Front (first : UInt8) (rest : List UInt8) : Utf8Front :=
  if first < 0x80 then .character 1
  else if 0xc2 ≤ first && first ≤ 0xdf then
    match rest with
    | [] => .truncated
    | b :: _ => if isContinuation b then .character 2 else .malformed 1
  else if 0xe0 ≤ first && first ≤ 0xef then
    match rest with
    | [] => .truncated
    | b :: rest =>
      if !fitsSecond first b then .malformed 1
      else match rest with
        | [] => .truncated
        | c :: _ => if isContinuation c then .character 3 else .malformed 2
  else if 0xf0 ≤ first && first ≤ 0xf4 then
    match rest with
    | [] => .truncated
    | b :: rest =>
      if !fitsSecond first b then .malformed 1
      else match rest with
        | [] => .truncated
        | c :: rest =>
          if !isContinuation c then .malformed 2
          else match rest with
            | [] => .truncated
            | d :: _ => if isContinuation d then .character 4 else .malformed 3
  else .malformed 1

/-- The first fault behind the given number of bytes already read. -/
def utf8Fault? (index : Nat) (bytes : List UInt8) : Option Utf8Fault :=
  match bytes with
  | [] => none
  | b :: rest =>
    match utf8Front b rest with
    | .character width => utf8Fault? (index + width) (rest.drop (width - 1))
    | .malformed width => some (.malformed width index)
    | .truncated => some (.truncated index)
termination_by bytes.length
decreasing_by simp only [List.length_drop, List.length_cons]; omega

/-- The text that the bytes encode, or the first fault. -/
def decode (bytes : ByteArray) : Except Utf8Fault String :=
  match String.fromUTF8? bytes with
  | some text => .ok text
  | none => .error ((utf8Fault? 0 bytes.toList).getD (.truncated 0))

/-- The code point of a character given by its first byte and its continuation bytes. -/
def codePoint (first : UInt8) (rest : List UInt8) : Nat :=
  let lead := if first < 0x80 then first.toNat
    else if first < 0xe0 then first.toNat - 0xc0
    else if first < 0xf0 then first.toNat - 0xe0
    else first.toNat - 0xf0
  rest.foldl (fun n b => n * 64 + (b.toNat - 0x80)) lead

/-- The text of any bytes, with the replacement character for each faulty sequence. -/
def decodeLossyList (bytes : List UInt8) : List Char :=
  match bytes with
  | [] => []
  | b :: rest =>
    match utf8Front b rest with
    | .character width =>
      Char.ofNat (codePoint b (rest.take (width - 1))) :: decodeLossyList (rest.drop (width - 1))
    | .malformed width => '\ufffd' :: decodeLossyList (rest.drop (width - 1))
    | .truncated => ['\ufffd']
termination_by bytes.length
decreasing_by all_goals simp only [List.length_drop, List.length_cons]; omega

/-- The text of any bytes, with the replacement character for each faulty sequence. -/
def decodeLossy (bytes : ByteArray) : String :=
  String.ofList (decodeLossyList bytes.toList)

end Vendoring.Text
