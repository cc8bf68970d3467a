/-
  Text inside markup.

  `escape` writes the four characters that mean something to a reader of markup as entities,
  `replaceLineBreaks` writes line breaks as tags.
-/

namespace WebStory

/-- One character of a text or of an attribute value. -/
def escapeMarkupChar (c : Char) : List Char :=
  if c = '&' then ['&', 'a', 'm', 'p', ';']
  else if c = '<' then ['&', 'l', 't', ';']
  else if c = '>' then ['&', 'g', 't', ';']
  else if c = '"' then ['&', 'q', 'u', 'o', 't', ';']
  else [c]

/-- A text with entities for `&`, `<`, `>` and the double quote. -/
def escapeMarkup (s : String) : String := String.ofList (s.toList.flatMap escapeMarkupChar)

/-- The tag of a line break. -/
def lineBreak : List Char := ['<', 'b', 'r', '>']

/-- A carriage return with the line feed after it, or either alone, becomes one line break. -/
def breakLines : List Char → List Char
  | [] => []
  | '\r' :: '\n' :: rest => lineBreak ++ breakLines rest
  | c :: rest => (if c = '\r' ∨ c = '\n' then lineBreak else [c]) ++ breakLines rest

def replaceLineBreaks (markup : String) : String := String.ofList (breakLines markup.toList)

/-- Writes each `</` as `<\/`, which JSON reads as the same text. -/
def guardClosing : List Char → List Char
  | [] => []
  | '<' :: '/' :: rest => '<' :: '\\' :: '/' :: guardClosing rest
  | c :: rest => c :: guardClosing rest

/-- A JSON text that cannot close the script element it stands in. -/
def escapeScript (json : String) : String := String.ofList (guardClosing json.toList)

example : escapeMarkup "a&b<\"c\">" = "a&amp;b&lt;&quot;c&quot;&gt;" := by decide
example : replaceLineBreaks "a\r\nb\rc\nd" = "a<br>b<br>c<br>d" := by decide
example : escapeScript "</a><</b>" = "<\\/a><<\\/b>" := by decide

end WebStory
