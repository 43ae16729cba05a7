import ReactiveTemplate.Text.Blank

/-!
# Script and style blocks

The tags of script and style blocks are read on their own, since what stands between them is no
markup.
-/

namespace ReactiveTemplate
namespace Template

/-- A script block: its text and the attributes of its tag. -/
structure Script where
  /-- The text between the tags. -/
  raw : String
  /-- The attributes of the tag, each name once. -/
  attributes : List (String × String)
  deriving DecidableEq, Repr

/-- Set the value of a name. -/
def setValue (entries : List (String × String)) (name value : String) : List (String × String) :=
  if entries.any (·.1 == name) then
    entries.map fun entry => if entry.1 == name then (name, value) else entry
  else entries ++ [(name, value)]

/-- Set the values of all names of a second list. -/
def setValues (entries added : List (String × String)) : List (String × String) :=
  added.foldl (fun acc (name, value) => setValue acc name value) entries

/-- A character of an attribute name.  Case is ignored, so that the two letters beyond ASCII whose
other case is an ASCII letter count too. -/
def isNameChar (c : Char) : Bool :=
  c.isAlphanum || c == ':' || c == '_' || c == '-' || c.toNat == 0x212a || c.toNat == 0x17f

/-- The number of characters before the first one of the given kind, if there is one. -/
def lengthBefore? (found : Char → Bool) (text : List Char) : Option Nat :=
  let lead := text.takeWhile fun c => !found c
  if lead.length < text.length then some lead.length else none

/-- A value in the given quotes at the start of the text, and its length with the quotes. -/
def quotedValue? (quote : Char) : List Char → Option (List Char × Nat)
  | c :: rest =>
    if c = quote then (lengthBefore? (· == quote) rest).map fun n => (rest.take n, n + 2) else none
  | [] => none

/-- A value without quotes at the start of the text, and its length. -/
def bareValue? (text : List Char) : Option (List Char × Nat) :=
  let value := text.takeWhile fun c => c != '>' && !Text.isBlank c
  if value.isEmpty then none else some (value, value.length)

/-- The value after the name of an attribute, and the length of all that belongs to it. -/
def attributeValue? (text : List Char) : Option (List Char × Nat) :=
  let lead := Text.blankLead text
  match text.drop lead with
  | '=' :: rest =>
    let gap := Text.blankLead rest
    let written := rest.drop gap
    let value? :=
      ((quotedValue? '"' written).or (quotedValue? '\x27' written)).or (bareValue? written)
    value?.map fun (value, length) => (value, lead + 1 + gap + length)
  | _ => none

/-- The attributes in the text of a tag; `skip` characters belong to one that has been read.  An
attribute without a value is true, and of two values of one name the later counts. -/
def attributesFrom (found : List (String × String)) : Nat → List Char → List (String × String)
  | _, [] => found
  | skip + 1, _ :: rest => attributesFrom found skip rest
  | 0, c :: rest =>
    if isNameChar c then
      let name := c :: rest.takeWhile isNameChar
      let after := rest.drop (name.length - 1)
      match attributeValue? after with
      | some (value, length) =>
        attributesFrom (setValue found (String.ofList name) (String.ofList value))
          (name.length - 1 + length) rest
      | none => attributesFrom (setValue found (String.ofList name) "true") (name.length - 1) rest
    else attributesFrom found 0 rest

/-- The attributes in the text of a tag. -/
def tagAttributes (text : List Char) : List (String × String) := attributesFrom [] 0 text

/-- The number of characters before the angle bracket that ends a tag, quoted texts left out. -/
def tagLength? : Option Char → List Char → Option Nat
  | _, [] => none
  | some quote, c :: rest =>
    (tagLength? (if c = quote then none else some quote) rest).map (· + 1)
  | none, c :: rest =>
    if c = '>' then some 0
    else (tagLength? (if c = '"' ∨ c = '\x27' then some c else none) rest).map (· + 1)

/-- The script of a page: the texts of its blocks that are not blank, one after the other. -/
def mergeScripts (scripts : List Script) : Option Script :=
  match scripts.filter fun script => !Text.allBlank script.raw.toList with
  | [] => none
  | kept =>
    some
      { raw := "\n\n".intercalate (kept.map (·.raw))
        attributes := kept.foldl (fun acc script => setValues acc script.attributes) [] }

end Template
end ReactiveTemplate
