/-!
# Styled text and log lines

Text for a terminal is styled by codes in front of it and a reset behind it, if styles are on at
all. A line of the log starts with its topic in brackets, in a colour that tells topics apart.
-/

namespace AssetLoom.Terminal

/-- A style, as the codes that turn it on. -/
structure Style where
  codes : String
  deriving DecidableEq, Repr

namespace Style

/-- A red that stands out. -/
def alert : Style := ⟨"31;1"⟩

/-- Red. -/
def red : Style := ⟨"31"⟩

/-- Yellow. -/
def yellow : Style := ⟨"33"⟩

/-- Cyan. -/
def cyan : Style := ⟨"36"⟩

/-- Less bright than other text. -/
def dimmed : Style := ⟨"2"⟩

/-- The style of a topic, whatever its case. -/
def ofTopic (topic : String) : Style :=
  match topic.toLower with
  | "compile" => ⟨"94;1"⟩
  | "resolve" => ⟨"92;1"⟩
  | "error" => ⟨"91;1"⟩
  | "warning" => ⟨"95;1"⟩
  | _ => ⟨"93;1"⟩

end Style

/-- The text in a style, if styles are on. -/
def paint (styled : Bool) (style : Style) (text : String) : String :=
  if styled then s!"\x1b[{style.codes}m{text}\x1b[0m" else text

/-- The lines that a text is written as, without the breaks between them. A break at the very end
starts no line of its own. -/
def linesOf (text : String) : List String :=
  let lines := (text.toList.splitOn '\n').map fun line =>
    match line.reverse with
    | '\r' :: front => String.ofList front.reverse
    | _ => String.ofList line
  match lines.reverse with
  | "" :: front => front.reverse
  | _ => lines

/-- The lines of a message in the log. -/
def logLines (styled : Bool) (topic message : String) : List String :=
  linesOf (paint styled (.ofTopic topic) s!"[{topic}]" ++ " " ++ message ++ "\n")

end AssetLoom.Terminal
