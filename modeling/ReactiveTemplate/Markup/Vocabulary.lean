import ReactiveTemplate.Markup.Dom
import ReactiveTemplate.Markup.Token

/-!
# Element groups and foreign names

The groups of elements that the construction of a document treats alike, and the spelling of names
in foreign vocabularies, which keep capital letters that tags do not have.
-/

namespace ReactiveTemplate
namespace Markup

/-- The headings. -/
def headings : List String := ["h1", "h2", "h3", "h4", "h5", "h6"]

/-- Elements whose end may be left out. -/
def impliedEnds : List String :=
  ["dd", "dt", "li", "option", "optgroup", "p", "rb", "rp", "rt", "rtc"]

/-- Elements whose end is implied at the end of a template. -/
def thoroughlyImpliedEnds : List String :=
  impliedEnds ++ ["caption", "colgroup", "tbody", "td", "tfoot", "th", "thead", "tr"]

/-- Elements that bound the search for an open element. -/
def scopeBounds : List String :=
  ["applet", "caption", "html", "table", "td", "th", "marquee", "object", "template"]

/-- Elements that hold formula text. -/
def formulaText : List String := ["mi", "mo", "mn", "ms", "mtext"]

/-- Elements of graphics that hold ordinary elements. -/
def graphicsHosts : List String := ["foreignObject", "desc", "title"]

/-- Elements that bound the search for a table part. -/
def tableScope : List String := ["html", "table", "template"]

/-- Elements that hold the rows of a table, and the bounds of their search. -/
def tableBodyContext : List String := ["tbody", "tfoot", "thead", "template", "html"]

/-- A row of a table, and the bounds of its search. -/
def tableRowContext : List String := ["tr", "template", "html"]

/-- Elements of a table that do not hold text themselves. -/
def tableStructure : List String := ["table", "tbody", "tfoot", "thead", "tr"]

/-- Elements with rules of their own. -/
def specialElements : List String :=
  ["address", "applet", "area", "article", "aside", "base", "basefont", "bgsound", "blockquote",
    "body", "br", "button", "caption", "center", "col", "colgroup", "dd", "details", "dir", "div",
    "dl", "dt", "embed", "fieldset", "figcaption", "figure", "footer", "form", "frame", "frameset",
    "h1", "h2", "h3", "h4", "h5", "h6", "head", "header", "hgroup", "hr", "html", "iframe", "img",
    "input", "isindex", "li", "link", "listing", "main", "marquee", "menu", "meta", "nav", "noembed",
    "noframes", "noscript", "object", "ol", "p", "param", "plaintext", "pre", "script", "section",
    "select", "source", "style", "summary", "table", "tbody", "td", "template", "textarea", "tfoot",
    "th", "thead", "title", "tr", "track", "ul", "wbr", "xmp"]

/-- Elements that close an open paragraph and have no other rule. -/
def blockElements : List String :=
  ["address", "article", "aside", "blockquote", "center", "details", "dialog", "dir", "div", "dl",
    "fieldset", "figcaption", "figure", "footer", "header", "hgroup", "main", "menu", "nav", "ol",
    "p", "section", "summary", "ul"]

/-- Elements whose closing tag closes whatever is left open inside. -/
def closableElements : List String :=
  ["address", "article", "aside", "blockquote", "button", "center", "details", "dialog", "dir",
    "div", "dl", "fieldset", "figcaption", "figure", "footer", "header", "hgroup", "listing", "main",
    "menu", "nav", "ol", "pre", "section", "summary", "ul"]

/-- Elements that are opened again after an element that closed them. -/
def formattingElements : List String :=
  ["b", "big", "code", "em", "font", "i", "s", "small", "strike", "strong", "tt", "u"]

/-- Elements that belong into the head. -/
def headElements : List String :=
  ["base", "basefont", "bgsound", "link", "meta", "noframes", "script", "style", "template", "title"]

/-- Tags that end foreign content. -/
def breakoutTags : List String :=
  ["b", "big", "blockquote", "body", "br", "center", "code", "dd", "div", "dl", "dt", "em", "embed",
    "h1", "h2", "h3", "h4", "h5", "h6", "head", "hr", "i", "img", "li", "listing", "menu", "meta",
    "nobr", "ol", "p", "pre", "ruby", "s", "small", "span", "strong", "strike", "sub", "sup", "table",
    "tt", "u", "ul", "var"]

/-- Element names of graphics that have capital letters. -/
def graphicsNames : List String :=
  ["altGlyph", "altGlyphDef", "altGlyphItem", "animateColor", "animateMotion", "animateTransform",
    "clipPath", "feBlend", "feColorMatrix", "feComponentTransfer", "feComposite",
    "feConvolveMatrix", "feDiffuseLighting", "feDisplacementMap", "feDistantLight", "feDropShadow",
    "feFlood", "feFuncA", "feFuncB", "feFuncG", "feFuncR", "feGaussianBlur", "feImage", "feMerge",
    "feMergeNode", "feMorphology", "feOffset", "fePointLight", "feSpecularLighting", "feSpotLight",
    "feTile", "feTurbulence", "foreignObject", "glyphRef", "linearGradient", "radialGradient",
    "textPath"]

/-- Attribute names of graphics that have capital letters. -/
def graphicsAttributes : List String :=
  ["attributeName", "attributeType", "baseFrequency", "baseProfile", "calcMode", "clipPathUnits",
    "diffuseConstant", "edgeMode", "filterUnits", "glyphRef", "gradientTransform", "gradientUnits",
    "kernelMatrix", "kernelUnitLength", "keyPoints", "keySplines", "keyTimes", "lengthAdjust",
    "limitingConeAngle", "markerHeight", "markerUnits", "markerWidth", "maskContentUnits",
    "maskUnits", "numOctaves", "pathLength", "patternContentUnits", "patternTransform",
    "patternUnits", "pointsAtX", "pointsAtY", "pointsAtZ", "preserveAlpha", "preserveAspectRatio",
    "primitiveUnits", "refX", "refY", "repeatCount", "repeatDur", "requiredExtensions",
    "requiredFeatures", "specularConstant", "specularExponent", "spreadMethod", "startOffset",
    "stdDeviation", "stitchTiles", "surfaceScale", "systemLanguage", "tableValues", "targetX",
    "targetY", "textLength", "viewBox", "viewTarget", "xChannelSelector", "yChannelSelector",
    "zoomAndPan"]

/-- The spelling of a name among the given ones. -/
def respell (names : List String) (name : String) : String :=
  (names.find? fun n => n.map Char.toLower == name).getD name

/-- Attributes with the names they have in graphics. -/
def graphicsSpelling (attributes : List (String × String)) : List (String × String) :=
  attributes.map fun (name, value) => (respell graphicsAttributes name, value)

/-- Attributes with the names they have in formulas. -/
def formulaSpelling (attributes : List (String × String)) : List (String × String) :=
  attributes.map fun (name, value) => (respell ["definitionURL"] name, value)

/-- The attribute that declares a vocabulary has an empty word before the colon in foreign elements. -/
def foreignSpelling (attributes : List (String × String)) : List (String × String) :=
  attributes.map fun (name, value) => (if name = "xmlns" then ":xmlns" else name, value)

/-- Attributes as they are written in elements of the given vocabulary. -/
def spellAttributes (vocabulary : Vocabulary) (attributes : List (String × String)) :
    List (String × String) :=
  match vocabulary with
  | .html => attributes
  | .svg => foreignSpelling (graphicsSpelling attributes)
  | .mathml => foreignSpelling (formulaSpelling attributes)

/-- Public identifiers of old document types, in lower case. -/
def oldPublicIds : List String :=
  ["-//w3o//dtd w3 html strict 3.0//en//", "-/w3c/dtd html 4.0 transitional/en", "html"]

/-- Starts of public identifiers of old document types, in lower case. -/
def oldPublicStarts : List String :=
  ["+//silmaril//dtd html pro v0r11 19970101//", "-//advasoft ltd//dtd html 3.0 aswedit + extensions//",
    "-//as//dtd html 3.0 aswedit + extensions//", "-//ietf//dtd html 2.0 level 1//",
    "-//ietf//dtd html 2.0 level 2//", "-//ietf//dtd html 2.0 strict level 1//",
    "-//ietf//dtd html 2.0 strict level 2//", "-//ietf//dtd html 2.0 strict//",
    "-//ietf//dtd html 2.0//", "-//ietf//dtd html 2.1e//", "-//ietf//dtd html 3.0//",
    "-//ietf//dtd html 3.2 final//", "-//ietf//dtd html 3.2//", "-//ietf//dtd html 3//",
    "-//ietf//dtd html level 0//", "-//ietf//dtd html level 1//", "-//ietf//dtd html level 2//",
    "-//ietf//dtd html level 3//", "-//ietf//dtd html strict level 0//",
    "-//ietf//dtd html strict level 1//", "-//ietf//dtd html strict level 2//",
    "-//ietf//dtd html strict level 3//", "-//ietf//dtd html strict//", "-//ietf//dtd html//",
    "-//metrius//dtd metrius presentational//",
    "-//microsoft//dtd internet explorer 2.0 html strict//",
    "-//microsoft//dtd internet explorer 2.0 html//",
    "-//microsoft//dtd internet explorer 2.0 tables//",
    "-//microsoft//dtd internet explorer 3.0 html strict//",
    "-//microsoft//dtd internet explorer 3.0 html//",
    "-//microsoft//dtd internet explorer 3.0 tables//", "-//netscape comm. corp.//dtd html//",
    "-//netscape comm. corp.//dtd strict html//", "-//o'reilly and associates//dtd html 2.0//",
    "-//o'reilly and associates//dtd html extended 1.0//",
    "-//o'reilly and associates//dtd html extended relaxed 1.0//",
    "-//softquad software//dtd hotmetal pro 6.0::19990601::extensions to html 4.0//",
    "-//softquad//dtd hotmetal pro 4.0::19971010::extensions to html 4.0//",
    "-//spyglass//dtd html 2.0 extended//", "-//sq//dtd html 2.0 hotmetal + extensions//",
    "-//sun microsystems corp.//dtd hotjava html//",
    "-//sun microsystems corp.//dtd hotjava strict html//", "-//w3c//dtd html 3 1995-03-24//",
    "-//w3c//dtd html 3.2 draft//", "-//w3c//dtd html 3.2 final//", "-//w3c//dtd html 3.2//",
    "-//w3c//dtd html 3.2s draft//", "-//w3c//dtd html 4.0 frameset//",
    "-//w3c//dtd html 4.0 transitional//", "-//w3c//dtd html experimental 19960712//",
    "-//w3c//dtd html experimental 970421//", "-//w3c//dtd w3 html//", "-//w3o//dtd w3 html 3.0//",
    "-//webtechs//dtd mozilla html 2.0//", "-//webtechs//dtd mozilla html//"]

/-- Starts of public identifiers that are old if there is no system identifier. -/
def oldWithoutSystem : List String :=
  ["-//w3c//dtd html 4.01 frameset//", "-//w3c//dtd html 4.01 transitional//"]

/-- The document type asks for the rules of old pages. -/
def Doctype.isOld (doctype : Doctype) : Bool :=
  let publicId := (doctype.publicId.getD "").map Char.toLower
  let starts (group : List String) : Bool :=
    group.any fun s => s.toList.isPrefixOf publicId.toList
  doctype.malformed || doctype.name != some "html" ||
    (doctype.publicId.isSome && oldPublicIds.contains publicId) ||
    (doctype.systemId.getD "").map Char.toLower ==
      "http://www.ibm.com/data/dtd/v11/ibmxhtml1-transitional.dtd" ||
    starts oldPublicStarts || (doctype.systemId.isNone && starts oldWithoutSystem)

end Markup
end ReactiveTemplate
