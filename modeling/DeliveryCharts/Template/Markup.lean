import DeliveryCharts.Template.Value
import DeliveryCharts.Text.Lines

/-!
Text in HTML and XML.
-/

namespace DeliveryCharts.Template.Markup

def escapeChar (c : Char) : List Char :=
  match c with
  | '<' => ['&', 'l', 't', ';']
  | '>' => ['&', 'g', 't', ';']
  | '&' => ['&', 'a', 'm', 'p', ';']
  | '"' => ['&', 'q', 'u', 'o', 't', ';']
  | '\'' => ['&', '#', 'x', '2', '7', ';']
  | '/' => ['&', '#', 'x', '2', 'f', ';']
  | c => [c]

def escape (s : String) : String := .ofList (s.toList.flatMap escapeChar)

/-- Text that is known to be safe stands as it is. -/
def render (html : Bool) (v : Value) : String :=
  match v with
  | .text s true => s
  | .text s false => if html then escape s else s
  | .list _ _ => if html then escape v.toText else v.toText
  | .map _ _ => if html then escape v.toText else v.toText
  | .handle _ => if html then escape v.toText else v.toText
  | v => v.toText

/-- Templates for HTML and XML by the ending of their name, before which `.j2` does not count. -/
def isMarkup (name : String) : Bool :=
  let cs := name.toList.reverse
  let cs := (Text.dropWord? ['2', 'j', '.'] cs).getD cs
  let ending := (cs.takeWhile (· != '.')).reverse
  ["html", "htm", "xml"].contains (String.ofList ending)

end DeliveryCharts.Template.Markup
