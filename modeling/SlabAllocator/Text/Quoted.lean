import SlabAllocator.Text.Shape

/-! A quoted text stands between double quotes. The quote, the backslash and a few controls
are written by a letter, and a character that cannot show itself by its number. -/

namespace SlabAllocator.Text

def escape (c : Char) : String :=
  match c with
  | '\x00' => "\\0"
  | '\t' => "\\t"
  | '\r' => "\\r"
  | '\n' => "\\n"
  | '\\' => "\\\\"
  | '"' => "\\\""
  | c =>
    if isShapeless c then
      "\\u\x7b" ++ String.ofList (Nat.toDigits 16 c.toNat) ++ "\x7d"
    else String.singleton c

def quote (text : String) : String :=
  "\"" ++ String.join (text.toList.map escape) ++ "\""

end SlabAllocator.Text
