import ReactiveTemplate.Markup.Reference

/-!
# Tokens of markup

The tokenizer of HTML: a machine that reads one character at a time.  What a token means for the
tokenizer itself (the content of a script is no markup) is decided by whoever consumes the tokens;
`Consumer` is that other side.
-/

namespace ReactiveTemplate
namespace Markup

/-- A tag as it was written. -/
structure Tag where
  /-- Name in lower case. -/
  name : String
  /-- Attributes in order; of several with one name, the first. -/
  attributes : List (String × String)
  /-- The tag ends with a slash. -/
  selfClosing : Bool
  deriving DecidableEq, Repr, Inhabited

/-- A document type declaration. -/
structure Doctype where
  /-- Name in lower case. -/
  name : Option String := none
  /-- Public identifier. -/
  publicId : Option String := none
  /-- System identifier. -/
  systemId : Option String := none
  /-- The declaration is malformed. -/
  malformed : Bool := false
  deriving DecidableEq, Repr

/-- A token of markup. -/
inductive Token where
  /-- A document type declaration. -/
  | doctype (doctype : Doctype)
  /-- An opening tag. -/
  | startTag (tag : Tag)
  /-- A closing tag. -/
  | endTag (tag : Tag)
  /-- A comment. -/
  | comment (text : String)
  /-- A character of text. -/
  | character (c : Char)
  /-- The character with number zero. -/
  | null
  /-- The end of the text. -/
  | ending
  deriving DecidableEq, Repr

/-- The kinds of text in which there is no markup but a closing tag. -/
inductive RawKind where
  /-- Text with character references. -/
  | references
  /-- Text without character references. -/
  | plain
  /-- A script. -/
  | script
  /-- A script, inside something that looks like a comment. -/
  | escaped
  /-- A script, inside something that looks like a script in a comment. -/
  | doubleEscaped
  deriving DecidableEq, Repr

/-- How an attribute value is written. -/
inductive Quoting where
  /-- In double quotes. -/
  | double
  /-- In single quotes. -/
  | single
  /-- Without quotes. -/
  | bare
  deriving DecidableEq, Repr

/-- The two identifiers of a document type. -/
inductive IdentifierKind where
  /-- The public identifier. -/
  | publicId
  /-- The system identifier. -/
  | systemId
  deriving DecidableEq, Repr

/-- What the tokenizer is reading. -/
inductive Reading where
  /-- Text between tags. -/
  | data
  /-- Text up to the end, without any markup. -/
  | plaintext
  /-- Text without markup but a closing tag. -/
  | raw (kind : RawKind)
  /-- After "<". -/
  | tagOpen
  /-- After "</". -/
  | endTagOpen
  /-- A tag name. -/
  | tagName
  /-- Before the name of an attribute. -/
  | beforeAttributeName
  /-- The name of an attribute. -/
  | attributeName
  /-- After the name of an attribute. -/
  | afterAttributeName
  /-- Before the value of an attribute. -/
  | beforeAttributeValue
  /-- The value of an attribute. -/
  | attributeValue (quoting : Quoting)
  /-- After a quoted value. -/
  | afterAttributeValue
  /-- After the slash in a tag. -/
  | selfClosing
  /-- A comment that ends at the first ">". -/
  | bogusComment
  /-- After "<!--". -/
  | commentStart
  /-- After "<!---". -/
  | commentStartDash
  /-- In a comment. -/
  | comment
  /-- In a comment, after "-". -/
  | commentEndDash
  /-- In a comment, after "--". -/
  | commentEnd
  /-- In a comment, after "--!". -/
  | commentEndBang
  /-- In a script, after "<!". -/
  | escapeStart
  /-- In a script, after "<!-". -/
  | escapeStartDash
  /-- In an escaped script, after "-". -/
  | escapedDash (double : Bool)
  /-- In an escaped script, after "--". -/
  | escapedDashDash (double : Bool)
  /-- In an escaped script, in the name after "<". -/
  | doubleEscapeStart
  /-- In a doubly escaped script, after "<". -/
  | doubleEscapedLess
  /-- In a doubly escaped script, in the name after "</". -/
  | doubleEscapeEnd
  /-- After "<!doctype". -/
  | doctype
  /-- Before the name of a document type. -/
  | beforeDoctypeName
  /-- The name of a document type. -/
  | doctypeName
  /-- After the name of a document type. -/
  | afterDoctypeName
  /-- After the word that announces an identifier. -/
  | afterDoctypeKeyword (kind : IdentifierKind)
  /-- Before an identifier. -/
  | beforeIdentifier (kind : IdentifierKind)
  /-- An identifier in the given quotes. -/
  | identifier (kind : IdentifierKind) (quote : Char)
  /-- After an identifier. -/
  | afterIdentifier (kind : IdentifierKind)
  /-- Between the two identifiers. -/
  | betweenIdentifiers
  /-- The rest of a malformed document type. -/
  | bogusDoctype
  /-- A section of character data. -/
  | cdata
  /-- In such a section, after "]". -/
  | cdataBracket
  /-- In such a section, after "]]". -/
  | cdataEnd
  deriving DecidableEq, Repr

/-- The state of the tokenizer between two characters.  Texts that are being collected are kept
backwards. -/
structure TokenizerState where
  /-- What is being read. -/
  reading : Reading := .data
  /-- How many of the next characters belong to what has been read already. -/
  skip : Nat := 0
  /-- The current tag is a closing tag. -/
  closing : Bool := false
  /-- Name of the current tag. -/
  name : List Char := []
  /-- The current tag ends with a slash. -/
  selfClosing : Bool := false
  /-- Finished attributes of the current tag. -/
  attributes : List (String × String) := []
  /-- Name of the current attribute; empty if there is none. -/
  attributeName : List Char := []
  /-- Value of the current attribute. -/
  attributeValue : List Char := []
  /-- Text of the current comment. -/
  comment : List Char := []
  /-- The current document type. -/
  doctype : Doctype := {}
  /-- The word being read inside an escaped script. -/
  word : List Char := []
  /-- Name of the last opening tag. -/
  lastStart : String := ""
  deriving Inhabited

/-- The replacement character. -/
def replacementChar : Char := Char.ofNat 0xfffd

/-- White space in markup. -/
def isSpace (c : Char) : Bool := c == ' ' || c == '\t' || c == '\n' || c == '\x0c'

/-- The text in the order of reading. -/
def forwards (reversed : List Char) : String := String.ofList reversed.reverse

/-- The text starts with a word, whatever the case of its letters. -/
def startsWithWord (text : List Char) (word : String) : Bool :=
  (text.take word.length).map Char.toLower == word.toList

/-- The result of one step: the new state and the tokens it produced. -/
abbrev Step := TokenizerState × List Token

namespace TokenizerState

/-- Go on reading something else. -/
def go (s : TokenizerState) (reading : Reading) (tokens : List Token) : Step :=
  ({ s with reading }, tokens)

/-- Put the current attribute among the finished ones, unless its name is there already. -/
def finishAttribute (s : TokenizerState) : TokenizerState :=
  if s.attributeName.isEmpty then s
  else
    let name := forwards s.attributeName
    let attributes :=
      if s.attributes.any (·.1 == name) then s.attributes
      else (name, forwards s.attributeValue) :: s.attributes
    { s with attributes, attributeName := [], attributeValue := [] }

/-- Start an attribute whose name begins with the given character. -/
def startAttribute (s : TokenizerState) (c : Char) : TokenizerState :=
  { s.finishAttribute with attributeName := [c], attributeValue := [], reading := .attributeName }

/-- Start a tag. -/
def startTag (s : TokenizerState) (closing : Bool) (name : List Char) : TokenizerState :=
  { s with
    closing, name, selfClosing := false, attributes := [], attributeName := [], attributeValue := []
    reading := .tagName }

/-- The current tag is complete. -/
def emitTag (s : TokenizerState) : Step :=
  let s := s.finishAttribute
  let tag : Tag := ⟨forwards s.name, s.attributes.reverse, s.selfClosing⟩
  if s.closing then ({ s with reading := .data }, [.endTag tag])
  else ({ s with reading := .data, lastStart := tag.name }, [.startTag tag])

/-- The current comment is complete. -/
def emitComment (s : TokenizerState) : Step :=
  s.go .data [.comment (forwards s.comment)]

/-- The current document type is complete. -/
def emitDoctype (s : TokenizerState) : Step := s.go .data [.doctype s.doctype]

/-- The current document type is complete and malformed. -/
def emitMalformedDoctype (s : TokenizerState) : Step :=
  s.go .data [.doctype { s.doctype with malformed := true }]

/-- A character of text, or of a kind of its own if its number is zero. -/
def dataChar (c : Char) : Token := if c = '\x00' then .null else .character c

/-- The character with number zero is replaced. -/
def replaceNull (c : Char) : Char := if c = '\x00' then replacementChar else c

/-- A character reference in text starts here. -/
def dataReference (s : TokenizerState) (rest : List Char) : Step :=
  match reference? false rest with
  | some (chars, length) => ({ s with skip := length }, chars.map .character)
  | none => (s, [.character '&'])

/-- Read a character of text between tags. -/
def readData (s : TokenizerState) (c : Char) (rest : List Char) : Step :=
  if c = '&' then { s with reading := .data }.dataReference rest
  else if c = '<' then s.go .tagOpen []
  else s.go .data [dataChar c]

/-- What follows "<" closes the element whose text is being read. -/
def closesRaw (s : TokenizerState) (rest : List Char) : Bool :=
  match rest with
  | '/' :: after =>
    let name := after.takeWhile Char.isAlpha
    !name.isEmpty && String.ofList (name.map Char.toLower) == s.lastStart &&
      ((after.drop name.length).head?.any fun c => isSpace c || c == '/' || c == '>')
  | _ => false

/-- Read the tag that closes the element whose text is being read. -/
def closeRaw (s : TokenizerState) : Step :=
  ({ s.startTag true s.lastStart.toList.reverse with skip := s.lastStart.length + 1 }, [])

/-- Read "<" in text without markup. -/
def readRawLess (s : TokenizerState) (kind : RawKind) (rest : List Char) : Step :=
  if kind = .doubleEscaped then s.go .doubleEscapedLess [.character '<']
  else if s.closesRaw rest then s.closeRaw
  else
    match kind, rest with
    | .script, '!' :: _ =>
      ({ s with reading := .escapeStart, skip := 1 }, [.character '<', .character '!'])
    | .escaped, c :: _ =>
      if c.isAlpha then ({ s with reading := .doubleEscapeStart, word := [] }, [.character '<'])
      else s.go (.raw kind) [.character '<']
    | _, _ => s.go (.raw kind) [.character '<']

/-- Read a character of text without markup. -/
def readRaw (s : TokenizerState) (kind : RawKind) (c : Char) (rest : List Char) : Step :=
  if c = '<' then s.readRawLess kind rest
  else if c = '&' ∧ kind = .references then { s with reading := .raw kind }.dataReference rest
  else if c = '-' ∧ kind = .escaped then s.go (.escapedDash false) [.character c]
  else if c = '-' ∧ kind = .doubleEscaped then s.go (.escapedDash true) [.character c]
  else s.go (.raw kind) [.character (replaceNull c)]

/-- The raw text of an escaped script. -/
def escapedKind (double : Bool) : RawKind := if double then .doubleEscaped else .escaped

/-- The letters read so far spell the word that ends or starts a doubly escaped script. -/
def wordIsScript (s : TokenizerState) : Bool := forwards s.word == "script"

/-- Read a character in one of the states inside a script. -/
def readEscape (s : TokenizerState) (c : Char) (rest : List Char) : Step :=
  let ends := isSpace c || c == '/' || c == '>'
  match s.reading with
  | .escapeStart =>
    if c = '-' then s.go .escapeStartDash [.character c] else s.readRaw .script c rest
  | .escapeStartDash =>
    if c = '-' then s.go (.escapedDashDash false) [.character c] else s.readRaw .script c rest
  | .escapedDash double =>
    if c = '-' then s.go (.escapedDashDash double) [.character c]
    else if c = '<' then s.readRawLess (escapedKind double) rest
    else s.go (.raw (escapedKind double)) [.character (replaceNull c)]
  | .escapedDashDash double =>
    if c = '-' then (s, [.character c])
    else if c = '<' then s.readRawLess (escapedKind double) rest
    else if c = '>' then s.go (.raw .script) [.character c]
    else s.go (.raw (escapedKind double)) [.character (replaceNull c)]
  | .doubleEscapeStart =>
    if ends then
      s.go (.raw (if s.wordIsScript then .doubleEscaped else .escaped)) [.character c]
    else if c.isAlpha then ({ s with word := c.toLower :: s.word }, [.character c])
    else s.readRaw .escaped c rest
  | .doubleEscapedLess =>
    if c = '/' then ({ s with reading := .doubleEscapeEnd, word := [] }, [.character c])
    else s.readRaw .doubleEscaped c rest
  | .doubleEscapeEnd =>
    if ends then
      s.go (.raw (if s.wordIsScript then .escaped else .doubleEscaped)) [.character c]
    else if c.isAlpha then ({ s with word := c.toLower :: s.word }, [.character c])
    else s.readRaw .doubleEscaped c rest
  | _ => (s, [])

/-- Read a character of a comment that ends at the first ">". -/
def readBogusComment (s : TokenizerState) (c : Char) : Step :=
  if c = '>' then s.emitComment
  else ({ s with reading := .bogusComment, comment := replaceNull c :: s.comment }, [])

/-- Read what follows "<!".  Sections of character data exist only in foreign elements. -/
def readDeclaration (s : TokenizerState) (foreign : Bool) (rest : List Char) : Step :=
  let s := { s with comment := [], doctype := {} }
  match rest with
  | '-' :: '-' :: _ => ({ s with reading := .commentStart, skip := 2 }, [])
  | _ =>
    if startsWithWord rest "doctype" then ({ s with reading := .doctype, skip := 7 }, [])
    else if foreign && "[CDATA[".toList.isPrefixOf rest then
      ({ s with reading := .cdata, skip := 7 }, [])
    else s.go .bogusComment []

/-- Read the character after "<". -/
def readTagOpen (s : TokenizerState) (foreign : Bool) (c : Char) (rest : List Char) : Step :=
  if c = '!' then s.readDeclaration foreign rest
  else if c = '/' then s.go .endTagOpen []
  else if c = '?' then { s with comment := [] }.readBogusComment c
  else if c.isAlpha then (s.startTag false [c.toLower], [])
  else
    let (next, tokens) := s.readData c rest
    (next, .character '<' :: tokens)

/-- Read the character after "</". -/
def readEndTagOpen (s : TokenizerState) (c : Char) : Step :=
  if c = '>' then s.go .data []
  else if c.isAlpha then (s.startTag true [c.toLower], [])
  else { s with comment := [] }.readBogusComment c

/-- Read a character before the name of an attribute. -/
def readBeforeAttributeName (s : TokenizerState) (c : Char) : Step :=
  if isSpace c then s.go .beforeAttributeName []
  else if c = '/' then s.go .selfClosing []
  else if c = '>' then s.emitTag
  else (s.startAttribute (replaceNull c.toLower), [])

/-- Read a character of an attribute value. -/
def readAttributeValue (s : TokenizerState) (quoting : Quoting) (c : Char) (rest : List Char) :
    Step :=
  let s := { s with reading := .attributeValue quoting }
  if quoting = .double ∧ c = '"' then s.go .afterAttributeValue []
  else if quoting = .single ∧ c = '\x27' then s.go .afterAttributeValue []
  else if quoting = .bare ∧ isSpace c then s.go .beforeAttributeName []
  else if quoting = .bare ∧ c = '>' then s.emitTag
  else if c = '&' then
    match reference? true rest with
    | some (chars, length) =>
      ({ s with attributeValue := chars.reverse ++ s.attributeValue, skip := length }, [])
    | none => ({ s with attributeValue := '&' :: s.attributeValue }, [])
  else ({ s with attributeValue := replaceNull c :: s.attributeValue }, [])

/-- Read a character of a tag. -/
def readTag (s : TokenizerState) (c : Char) (rest : List Char) : Step :=
  match s.reading with
  | .tagName =>
    if isSpace c then s.go .beforeAttributeName []
    else if c = '/' then s.go .selfClosing []
    else if c = '>' then s.emitTag
    else ({ s with name := replaceNull c.toLower :: s.name }, [])
  | .beforeAttributeName => s.readBeforeAttributeName c
  | .attributeName =>
    if isSpace c then s.go .afterAttributeName []
    else if c = '/' then s.go .selfClosing []
    else if c = '=' then s.go .beforeAttributeValue []
    else if c = '>' then s.emitTag
    else ({ s with attributeName := replaceNull c.toLower :: s.attributeName }, [])
  | .afterAttributeName =>
    if isSpace c then (s, [])
    else if c = '/' then s.go .selfClosing []
    else if c = '=' then s.go .beforeAttributeValue []
    else if c = '>' then s.emitTag
    else (s.startAttribute (replaceNull c.toLower), [])
  | .beforeAttributeValue =>
    if isSpace c then (s, [])
    else if c = '"' then s.go (.attributeValue .double) []
    else if c = '\x27' then s.go (.attributeValue .single) []
    else if c = '>' then s.emitTag
    else s.readAttributeValue .bare c rest
  | .attributeValue quoting => s.readAttributeValue quoting c rest
  | .afterAttributeValue =>
    if isSpace c then s.go .beforeAttributeName []
    else if c = '/' then s.go .selfClosing []
    else if c = '>' then s.emitTag
    else s.readBeforeAttributeName c
  | .selfClosing =>
    if c = '>' then { s with selfClosing := true }.emitTag else s.readBeforeAttributeName c
  | _ => (s, [])

/-- Add characters to the current comment. -/
def pushComment (s : TokenizerState) (text : List Char) : TokenizerState :=
  { s with comment := text.reverse ++ s.comment }

/-- Read a character of a comment. -/
def readComment (s : TokenizerState) (c : Char) : Step :=
  let within (s : TokenizerState) : Step :=
    if c = '-' then s.go .commentEndDash [] else (s.pushComment [replaceNull c]).go .comment []
  match s.reading with
  | .commentStart =>
    if c = '-' then s.go .commentStartDash []
    else if c = '>' then s.emitComment
    else within s
  | .commentStartDash =>
    if c = '-' then s.go .commentEnd []
    else if c = '>' then s.emitComment
    else within (s.pushComment ['-'])
  | .commentEndDash => if c = '-' then s.go .commentEnd [] else within (s.pushComment ['-'])
  | .commentEnd =>
    if c = '>' then s.emitComment
    else if c = '!' then s.go .commentEndBang []
    else if c = '-' then (s.pushComment ['-'], [])
    else within (s.pushComment ['-', '-'])
  | .commentEndBang =>
    if c = '-' then (s.pushComment ['-', '-', '!']).go .commentEndDash []
    else if c = '>' then s.emitComment
    else within (s.pushComment ['-', '-', '!'])
  | _ => within s

/-- Add a character to the name of the document type. -/
def pushDoctypeName (s : TokenizerState) (c : Char) : TokenizerState :=
  { s with
    doctype := { s.doctype with name := some ((s.doctype.name.getD "").push (replaceNull c.toLower)) } }

/-- The identifier of the given kind. -/
def setIdentifier (s : TokenizerState) (kind : IdentifierKind) (text : String) : TokenizerState :=
  match kind with
  | .publicId => { s with doctype := { s.doctype with publicId := some text } }
  | .systemId => { s with doctype := { s.doctype with systemId := some text } }

/-- The identifier of the given kind. -/
def getIdentifier (s : TokenizerState) (kind : IdentifierKind) : String :=
  match kind with
  | .publicId => s.doctype.publicId.getD ""
  | .systemId => s.doctype.systemId.getD ""

/-- The rest of the document type is malformed. -/
def malform (s : TokenizerState) : Step :=
  { s with doctype := { s.doctype with malformed := true } }.go .bogusDoctype []

/-- Read a character before the name of a document type. -/
def readBeforeDoctypeName (s : TokenizerState) (c : Char) : Step :=
  if isSpace c then s.go .beforeDoctypeName []
  else if c = '>' then s.emitMalformedDoctype
  else (s.pushDoctypeName c).go .doctypeName []

/-- Read a character where the identifier of the given kind may start. -/
def readIdentifierStart (s : TokenizerState) (kind : IdentifierKind) (c : Char) : Step :=
  if c = '"' ∨ c = '\x27' then (s.setIdentifier kind "").go (.identifier kind c) []
  else if c = '>' then s.emitMalformedDoctype
  else s.malform

/-- Read a character of a document type. -/
def readDoctype (s : TokenizerState) (c : Char) (rest : List Char) : Step :=
  match s.reading with
  | .doctype | .beforeDoctypeName => s.readBeforeDoctypeName c
  | .doctypeName =>
    if isSpace c then s.go .afterDoctypeName []
    else if c = '>' then s.emitDoctype
    else (s.pushDoctypeName c, [])
  | .afterDoctypeName =>
    if isSpace c then (s, [])
    else if c = '>' then s.emitDoctype
    else if startsWithWord (c :: rest) "public" then
      ({ s with reading := .afterDoctypeKeyword .publicId, skip := 5 }, [])
    else if startsWithWord (c :: rest) "system" then
      ({ s with reading := .afterDoctypeKeyword .systemId, skip := 5 }, [])
    else s.malform
  | .afterDoctypeKeyword kind =>
    if isSpace c then s.go (.beforeIdentifier kind) [] else s.readIdentifierStart kind c
  | .beforeIdentifier kind => if isSpace c then (s, []) else s.readIdentifierStart kind c
  | .identifier kind quote =>
    if c = quote then s.go (.afterIdentifier kind) []
    else if c = '>' then s.emitMalformedDoctype
    else (s.setIdentifier kind ((s.getIdentifier kind).push (replaceNull c)), [])
  | .afterIdentifier .publicId | .betweenIdentifiers =>
    if isSpace c then s.go .betweenIdentifiers []
    else if c = '>' then s.emitDoctype
    else if c = '"' ∨ c = '\x27' then
      (s.setIdentifier .systemId "").go (.identifier .systemId c) []
    else s.malform
  | .afterIdentifier .systemId =>
    if isSpace c then (s, [])
    else if c = '>' then s.emitDoctype
    else s.go .bogusDoctype []
  | _ => if c = '>' then s.emitDoctype else (s, [])

/-- Read a character of a section of character data. -/
def readCdata (s : TokenizerState) (c : Char) : Step :=
  let plain (before : List Token) : Step :=
    if c = ']' then s.go .cdataBracket before else s.go .cdata (before ++ [dataChar c])
  match s.reading with
  | .cdataBracket => if c = ']' then s.go .cdataEnd [] else plain [.character ']']
  | .cdataEnd =>
    if c = ']' then (s, [.character ']'])
    else if c = '>' then s.go .data []
    else plain [.character ']', .character ']']
  | _ => plain []

/-- Read one character. -/
def step (s : TokenizerState) (foreign : Bool) (c : Char) (rest : List Char) : Step :=
  match s.reading with
  | .data => s.readData c rest
  | .plaintext => (s, [.character (replaceNull c)])
  | .raw kind => s.readRaw kind c rest
  | .tagOpen => s.readTagOpen foreign c rest
  | .endTagOpen => s.readEndTagOpen c
  | .tagName | .beforeAttributeName | .attributeName | .afterAttributeName | .beforeAttributeValue
  | .attributeValue _ | .afterAttributeValue | .selfClosing => s.readTag c rest
  | .bogusComment => s.readBogusComment c
  | .commentStart | .commentStartDash | .comment | .commentEndDash | .commentEnd
  | .commentEndBang => s.readComment c
  | .escapeStart | .escapeStartDash | .escapedDash _ | .escapedDashDash _ | .doubleEscapeStart
  | .doubleEscapedLess | .doubleEscapeEnd => s.readEscape c rest
  | .doctype | .beforeDoctypeName | .doctypeName | .afterDoctypeName | .afterDoctypeKeyword _
  | .beforeIdentifier _ | .identifier _ _ | .afterIdentifier _ | .betweenIdentifiers
  | .bogusDoctype => s.readDoctype c rest
  | .cdata | .cdataBracket | .cdataEnd => s.readCdata c

/-- The tokens that the end of the text brings.  An unfinished tag is dropped. -/
def finish (s : TokenizerState) : List Token :=
  (match s.reading with
    | .tagOpen => [.character '<']
    | .endTagOpen => [.character '<', .character '/']
    | .bogusComment | .commentStart | .commentStartDash | .comment | .commentEndDash | .commentEnd
    | .commentEndBang => [.comment (forwards s.comment)]
    | .bogusDoctype => [.doctype s.doctype]
    | .doctype | .beforeDoctypeName | .doctypeName | .afterDoctypeName | .afterDoctypeKeyword _
    | .beforeIdentifier _ | .identifier _ _ | .afterIdentifier _ | .betweenIdentifiers =>
      [.doctype { s.doctype with malformed := true }]
    | .cdataBracket => [.character ']']
    | .cdataEnd => [.character ']', .character ']']
    | _ => []) ++ [.ending]

end TokenizerState

/-- How the text after a token is to be read. -/
inductive Feedback where
  /-- As before. -/
  | proceed
  /-- As text without markup. -/
  | raw (kind : RawKind)
  /-- As text up to the end. -/
  | plaintext
  deriving DecidableEq, Repr

/-- Someone who takes tokens, with a state of their own. -/
structure Consumer (σ : Type) where
  /-- Take a token. -/
  take : σ → Token → σ × Feedback
  /-- The current element is a foreign one. -/
  foreign : σ → Bool

namespace Consumer

/-- Hand tokens over in turn. -/
def takeAll {σ : Type} (consumer : Consumer σ) (tokenizer : TokenizerState) (state : σ) :
    List Token → TokenizerState × σ
  | [] => (tokenizer, state)
  | token :: rest =>
    match consumer.take state token with
    | (state, .proceed) => consumer.takeAll tokenizer state rest
    | (state, .raw kind) => consumer.takeAll { tokenizer with reading := .raw kind } state rest
    | (state, .plaintext) => consumer.takeAll { tokenizer with reading := .plaintext } state rest

/-- Read a text up to its end. -/
def runFrom {σ : Type} (consumer : Consumer σ) (tokenizer : TokenizerState) (state : σ) :
    List Char → σ
  | [] => (consumer.takeAll tokenizer state tokenizer.finish).2
  | c :: rest =>
    if 0 < tokenizer.skip then
      consumer.runFrom { tokenizer with skip := tokenizer.skip - 1 } state rest
    else
      let (next, tokens) := tokenizer.step (consumer.foreign state) c rest
      let (next, state) := consumer.takeAll next state tokens
      consumer.runFrom next state rest

end Consumer

/-- Every line end is a line feed. -/
def normalizeLines : List Char → List Char
  | [] => []
  | '\r' :: '\n' :: rest => '\n' :: normalizeLines rest
  | '\r' :: rest => '\n' :: normalizeLines rest
  | c :: rest => c :: normalizeLines rest

/-- A text as the tokenizer sees it: without byte order mark, with line feeds as line ends. -/
def prepare (text : List Char) : List Char :=
  normalizeLines (match text with
    | c :: rest => if c.toNat = 0xfeff then rest else c :: rest
    | [] => [])

/-- Read a text with the given consumer. -/
def Consumer.run {σ : Type} (consumer : Consumer σ) (state : σ) (text : List Char) : σ :=
  consumer.runFrom {} state (prepare text)

end Markup
end ReactiveTemplate
