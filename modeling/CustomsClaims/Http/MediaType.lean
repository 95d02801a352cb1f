import CustomsClaims.Http.Message
import CustomsClaims.Text.Blank

/-!
# Media types

Whether the headers of a request allow to read its body as JSON.
-/

namespace CustomsClaims.Http

/-- May the byte stand in a text of visible characters? -/
def isVisible (b : UInt8) : Bool := (0x20 ≤ b && b < 0x7F) || b = 0x09

/-- The media type without its parameters, in lower case. -/
def essence (value : Bytes) : List Char :=
  (trim ((value.takeWhile (· ≠ 0x3B)).map fun b => Char.ofNat b.toNat)).map Char.toLower

/-- Is it the media type of JSON, or of a format that is written in JSON? -/
def isJsonType (type : List Char) : Bool :=
  type = "application/json".toList ||
    ("application/".toList.isPrefixOf type && "+json".toList.isSuffixOf type)

/-- May the body be read as JSON? It may if no media type is declared. -/
def Headers.allowJson (h : Headers) : Bool :=
  (h.first? "content-type").all fun value => value.all isVisible && isJsonType (essence value)

end CustomsClaims.Http
