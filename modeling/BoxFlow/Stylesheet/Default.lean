import BoxFlow.Stylesheet.Parse

/-!
# The default stylesheet

What elements look like when a page says nothing about them. The table lists
selector groups with their declarations; shorthands expand as they do in a
source. A page's own sheet is merged over this one.
-/

namespace BoxFlow

/-- Selectors with the declarations they share. -/
abbrev RuleGroup := List String × List (String × String)

namespace DefaultSheet

/-- Elements that are never shown. -/
def hiddenElements : List RuleGroup :=
  [(["area", "base", "basefont", "datalist", "head", "link", "meta", "noembed", "noframes",
     "param", "rp", "script", "style", "template", "title"],
    [("display", "none")])]

/-- Elements that start on a line of their own. -/
def flowContent : List RuleGroup :=
  [(["article", "aside", "body", "center", "details", "dialog", "dir", "div", "dl", "dt",
     "fieldset", "figcaption", "footer", "form", "header", "hgroup", "html", "legend", "main",
     "nav", "search", "section", "summary"],
    [("display", "block")]),
   (["address"], [("display", "block"), ("font-style", "italic")]),
   (["blockquote", "figure"], [("display", "block"), ("margin", "1em 40px")]),
   (["dd"], [("display", "block"), ("margin-left", "40px")]),
   (["hr"],
    [("display", "block"), ("margin", "0.5em auto"), ("border-style", "inset"),
     ("border-width", "1px")])]

/-- The page itself. -/
def page : List RuleGroup :=
  [(["body"], [("margin", "8px")])]

/-- Paragraphs and preformatted text. -/
def groupingContent : List RuleGroup :=
  [(["p"], [("display", "block"), ("margin", "1em 0")]),
   (["pre"],
    [("display", "block"), ("font-family", "monospace"), ("white-space", "pre"),
     ("margin", "1em 0")])]

/-- Headings, from large to small. -/
def headings : List RuleGroup :=
  [(["h1"],
    [("display", "block"), ("font-size", "2em"), ("font-weight", "bold"), ("margin", "0.67em 0")]),
   (["h2"],
    [("display", "block"), ("font-size", "1.5em"), ("font-weight", "bold"),
     ("margin", "0.83em 0")]),
   (["h3"],
    [("display", "block"), ("font-size", "1.17em"), ("font-weight", "bold"), ("margin", "1em 0")]),
   (["h4"], [("display", "block"), ("font-weight", "bold"), ("margin", "1.33em 0")]),
   (["h5"],
    [("display", "block"), ("font-size", "0.83em"), ("font-weight", "bold"),
     ("margin", "1.67em 0")]),
   (["h6"],
    [("display", "block"), ("font-size", "0.67em"), ("font-weight", "bold"),
     ("margin", "2.33em 0")])]

/-- Lists and their items. -/
def lists : List RuleGroup :=
  [(["ul", "menu"],
    [("display", "block"), ("list-style-type", "disc"), ("margin", "1em 0"),
     ("padding-left", "40px")]),
   (["ol"],
    [("display", "block"), ("list-style-type", "decimal"), ("margin", "1em 0"),
     ("padding-left", "40px")]),
   (["li"], [("display", "list-item")])]

/-- Elements within a line, and images. -/
def textLevel : List RuleGroup :=
  [(["a", "abbr", "b", "cite", "code", "dfn", "em", "i", "kbd", "label", "mark", "q", "s",
     "samp", "small", "span", "strong", "sub", "sup", "u", "var"],
    [("display", "inline")]),
   (["a:link"], [("color", "blue"), ("text-decoration", "underline")]),
   (["a:visited"], [("color", "darkblue"), ("text-decoration", "underline")]),
   (["b", "strong"], [("font-weight", "bold")]),
   (["i", "cite", "em", "var", "dfn"], [("font-style", "italic")]),
   (["mark"], [("background-color", "yellow"), ("color", "black")]),
   (["code", "kbd", "samp"], [("font-family", "monospace")]),
   (["s", "strike", "del"], [("text-decoration", "line-through")]),
   (["u", "ins"], [("text-decoration", "underline")]),
   (["img"], [("display", "inline-block")])]

/-- Tables and their parts. -/
def tables : List RuleGroup :=
  [(["table"], [("display", "table"), ("border-color", "gray")]),
   (["tbody"], [("display", "table-row-group")]),
   (["tr"], [("display", "table-row")]),
   (["td"], [("display", "table-cell")]),
   (["th"], [("display", "table-cell"), ("font-weight", "bold")])]

/-- All groups, in order. -/
def groups : List RuleGroup :=
  hiddenElements ++ flowContent ++ page ++ groupingContent ++ headings ++ lists ++ textLevel ++
    tables

end DefaultSheet

namespace Stylesheet

/-- Declares a group. A selector that cannot be read is passed over. -/
def declareGroup (sheet : Stylesheet) (group : RuleGroup) : Stylesheet :=
  let declarations := group.2.foldl (fun b pair => b.declare pair.1 pair.2) Block.empty
  group.1.foldl
    (fun sheet text =>
      match Selector.parse text.toList with
      | .ok selector => sheet.declare text selector declarations
      | .error _ => sheet)
    sheet

/-- The default stylesheet. -/
def default : Stylesheet :=
  DefaultSheet.groups.foldl declareGroup empty

end Stylesheet

end BoxFlow
