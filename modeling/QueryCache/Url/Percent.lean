import QueryCache.Text.Hexadecimal

/-!
# Percent encoding

A character that cannot stand in some part of a URL is written as the bytes of
its UTF-8 form, each as a percent sign and two hexadecimal digits. Which
characters that concerns depends on the part. No character outside of ASCII can
stand for itself anywhere.
-/

namespace QueryCache

namespace Percent

/-- A control character. -/
def isControl (c : Char) : Bool := c < ' ' || c == '\x7f'

/-- Has to be encoded in a fragment. -/
def inFragment (c : Char) : Bool := isControl c || " \"<>`".toList.contains c

/-- Has to be encoded in a path. -/
def inPath (c : Char) : Bool := inFragment c || "#?\x7b\x7d".toList.contains c

/-- Has to be encoded in a user name or a password. -/
def inUserinfo (c : Char) : Bool := inPath c || "/:;=@[\\]^|".toList.contains c

/-- Has to be encoded in a query. -/
def inQuery (c : Char) : Bool := isControl c || " \"#<>".toList.contains c

/-- Has to be encoded in a query of a special scheme. -/
def inSpecialQuery (c : Char) : Bool := inQuery c || c == '\''

/-- A byte as a percent sign and two digits. -/
def byteText (byte : UInt8) : List Char :=
  '%' :: Text.hexPadded .upper 2 byte.toNat

/-- A character, encoded where it has to be. -/
def encodeChar (mustEncode : Char → Bool) (c : Char) : List Char :=
  if c.toNat < 0x80 && !mustEncode c then [c]
  else (String.utf8EncodeChar c).flatMap byteText

/-- A text with every character encoded that has to be. -/
def encode (mustEncode : Char → Bool) (text : List Char) : String :=
  String.ofList (text.flatMap (encodeChar mustEncode))

/-- The bytes of a text in which percent signs with two digits stand for a
byte. -/
def decodeBytes : List Char → List UInt8
  | '%' :: a :: b :: rest =>
    match Text.hexNumber? [a, b] with
    | some byte => UInt8.ofNat byte :: decodeBytes rest
    | none => UInt8.ofNat '%'.toNat :: decodeBytes (a :: b :: rest)
  | c :: rest => String.utf8EncodeChar c ++ decodeBytes rest
  | [] => []

/-- The text behind an encoded one, if its bytes are UTF-8. -/
def decode? (text : List Char) : Option (List Char) :=
  (String.fromUTF8? ⟨(decodeBytes text).toArray⟩).map String.toList

end Percent

end QueryCache
