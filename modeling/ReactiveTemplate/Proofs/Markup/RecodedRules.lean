import ReactiveTemplate.Proofs.Markup.Delivery
import ReactiveTemplate.Proofs.Markup.Recoding

/-!
# The rules and recodings

Every rule makes the same of a token whose values or character are replaced, in a document whose
values and characters are replaced in the same way, and so does taking one token after the other.
So a document is left as it is by what leaves its tokens as they are.
-/

namespace ReactiveTemplate
namespace Markup

variable {ρ : Recoding}

/-! ## Rules -/

/-- The reply with all values and characters replaced. -/
def Reply.recode (ρ : Recoding) (reply : Reply) : Reply :=
  { reply with next := reply.next.recode ρ }

namespace Construction

variable (c : Construction) (tag : Tag) (token : Token)

@[simp] theorem done_recode : (c.recode ρ).done = c.done.recode ρ := rfl

@[simp] theorem retry_recode (mode : Mode) :
    (c.recode ρ).retry mode = (c.retry mode).recode ρ := rfl

@[simp] theorem recode_ite {p : Prop} [Decidable p] (first second : Construction) :
    (if p then first.recode ρ else second.recode ρ) =
      (if p then first else second).recode ρ :=
  (apply_ite (Construction.recode ρ) p first second).symm

/-- A change of flags commutes with the replacement. -/
@[simp] theorem mk_recode (store : Store) (mode returnMode : Mode) (templateModes : List Mode)
    (tableText : List Char) (old : Bool) (opened : List Nat) (formatting : List Formatting)
    (head form : Option Nat) (framesAllowed dropLineFeed fostering : Bool) :
    (⟨store.recode ρ, mode, returnMode, templateModes, tableText.map ρ.char, old, opened,
        formatting.map (Formatting.recode ρ), head, form, framesAllowed, dropLineFeed,
        fostering⟩ : Construction) =
      recode ρ ⟨store, mode, returnMode, templateModes, tableText, old, opened, formatting, head,
        form, framesAllowed, dropLineFeed, fostering⟩ := rfl

@[simp] theorem reply_recode_ite {p : Prop} [Decidable p] (first second : Reply) :
    (if p then first else second).recode ρ = if p then first.recode ρ else second.recode ρ :=
  apply_ite (Reply.recode ρ) p first second

@[simp] theorem reply_map_recode_ite {p : Prop} [Decidable p] (first second : Option Reply) :
    (if p then first else second).map (Reply.recode ρ) =
      if p then first.map (Reply.recode ρ) else second.map (Reply.recode ρ) :=
  apply_ite (Option.map (Reply.recode ρ)) p first second

@[simp] theorem recode_next (reply : Reply) :
    (reply.recode ρ).next = reply.next.recode ρ := rfl
@[simp] theorem recode_feedback (reply : Reply) :
    (reply.recode ρ).feedback = reply.feedback := rfl
@[simp] theorem recode_again (reply : Reply) : (reply.recode ρ).again = reply.again := rfl

/-- A tag under another name commutes with the replacement. -/
@[simp] theorem tag_mk_recode (name : String) (attributes : List (String × String))
    (selfClosing : Bool) :
    (⟨name, attributes.map (recoded ρ), selfClosing⟩ : Tag) =
      Tag.recode ρ ⟨name, attributes, selfClosing⟩ := rfl

@[simp] theorem reply_mk_recode (feedback : Feedback) (again : Bool) :
    Reply.recode ρ ⟨c, feedback, again⟩ = ⟨c.recode ρ, feedback, again⟩ := rfl

@[simp] theorem openRaw_recode (kind : RawKind) :
    (c.recode ρ).openRaw (tag.recode ρ) kind = (c.openRaw tag kind).recode ρ := by
  simp only [openRaw, openTag_recode]
  rfl

@[simp] theorem isFiller_recode (char : Char) : isFiller (ρ.char char) = isFiller char :=
  ρ.filler char

theorem find?_recoded (key : String) (attributes : List (String × String)) :
    (attributes.map (recoded ρ)).find? (·.1 == key) =
      (attributes.find? (·.1 == key)).map (recoded ρ) := by
  simp only [List.find?_map, Function.comp_def, recoded_fst]

@[simp] theorem isHidden_recode : isHidden (tag.recode ρ) = isHidden tag := by
  rw [isHidden, isHidden, Tag.recode_attributes, find?_recoded]
  cases found : tag.attributes.find? (·.1 == "type") with
  | none => rfl
  | some entry =>
      obtain ⟨key, old⟩ := entry
      have same : key = "type" := by simpa using List.find?_some found
      subst same
      exact Bool.eq_iff_iff.mpr (by simpa [recoded] using ρ.hidden old)

@[simp] theorem closeTemplate_recode :
    (c.recode ρ).closeTemplate = c.closeTemplate.recode ρ := by
  simp [closeTemplate]

@[simp] theorem endTemplate_recode : (c.recode ρ).endTemplate = c.endTemplate.recode ρ := by
  simp [endTemplate]

@[simp] theorem mergeRoot_recode :
    (c.recode ρ).mergeRoot (tag.recode ρ) = (c.mergeRoot tag).recode ρ := by
  simp [mergeRoot]

@[simp] theorem headTag_recode :
    (c.recode ρ).headTag (tag.recode ρ) = (c.headTag tag).recode ρ := by
  simp [headTag]

@[simp] theorem inHead_recode :
    (c.recode ρ).inHead (token.recode ρ) = (c.inHead token).recode ρ := by
  cases token with
  | startTag tag =>
      simp only [inHead, Token.recode, Bool.or_eq_true, decide_eq_true_eq]
      simp
      rfl
  | _ => simp [inHead, Token.recode]

@[simp] theorem closeItem_recode (names : List String) :
    (c.recode ρ).closeItem names = (c.closeItem names).recode ρ := by
  simp only [closeItem, isOneOf_recode, recode_opened, nameOf_recode,
    closeImpliedExcept_recode, popNamed_recode]
  split
  · cases c.opened.find? (c.isOneOf names) <;> rfl
  · rfl

@[simp] theorem openForeign_recode (vocabulary : Vocabulary) (name : String) :
    (c.recode ρ).openForeign vocabulary name (tag.recode ρ) =
      (c.openForeign vocabulary name tag).recode ρ := by
  simp [openForeign]

@[simp] theorem bodyEmpty_recode :
    (c.recode ρ).bodyEmpty (tag.recode ρ) = (c.bodyEmpty tag).recode ρ := by
  simp [bodyEmpty]

@[simp] theorem openSelect_recode :
    (c.recode ρ).openSelect (tag.recode ρ) = (c.openSelect tag).recode ρ := by
  simp [openSelect]

@[simp] theorem mergeBody_recode :
    (c.recode ρ).mergeBody (tag.recode ρ) = (c.mergeBody tag).recode ρ := by
  simp only [mergeBody, body?_recode, hasOpen_recode]
  split
  · simp
  · rfl

@[simp] theorem openFrames_recode :
    (c.recode ρ).openFrames (tag.recode ρ) = (c.openFrames tag).recode ρ := by
  simp only [openFrames, body?_recode, recode_framesAllowed]
  split
  · rfl
  · split
    · simp
    · rfl

@[simp] theorem openForm_recode :
    (c.recode ρ).openForm (tag.recode ρ) = (c.openForm tag).recode ρ := by
  simp [openForm]

theorem bodyBlock?_recode :
    (c.recode ρ).bodyBlock? (tag.recode ρ) = (c.bodyBlock? tag).map (Reply.recode ρ) := by
  simp [bodyBlock?]

theorem bodyFormatting?_recode :
    (c.recode ρ).bodyFormatting? (tag.recode ρ) =
      (c.bodyFormatting? tag).map (Reply.recode ρ) := by
  simp [bodyFormatting?, openFormatting_recode]

@[simp] theorem bodyInline_recode :
    (c.recode ρ).bodyInline (tag.recode ρ) = (c.bodyInline tag).recode ρ := by
  simp [bodyInline]

@[simp] theorem closeForm_recode : (c.recode ρ).closeForm = c.closeForm.recode ρ := by
  simp only [closeForm, recode_form]
  cases c.form <;> simp

@[simp] theorem bodyEnd_recode :
    (c.recode ρ).bodyEnd (tag.recode ρ) = (c.bodyEnd tag).recode ρ := by
  have bare : (c.recode ρ).bodyEmpty ⟨tag.name, [], tag.selfClosing⟩ =
      (c.bodyEmpty ⟨tag.name, [], tag.selfClosing⟩).recode ρ :=
    bodyEmpty_recode c ⟨tag.name, [], tag.selfClosing⟩
  simp [bodyEnd, bare]

/-! ## Modes -/

theorem atStart_recode :
    (c.recode ρ).atStart (token.recode ρ) = (c.atStart token).recode ρ := by
  cases token <;> simp [atStart, Token.recode]

theorem beforeHtml_recode :
    (c.recode ρ).beforeHtml (token.recode ρ) = (c.beforeHtml token).recode ρ := by
  cases token <;> simp [beforeHtml, Token.recode]

theorem beforeHead_recode :
    (c.recode ρ).beforeHead (token.recode ρ) = (c.beforeHead token).recode ρ := by
  cases token <;> simp [beforeHead, Token.recode]

theorem afterHead_recode :
    (c.recode ρ).afterHead (token.recode ρ) = (c.afterHead token).recode ρ := by
  cases token <;> simp [afterHead, Token.recode]

theorem inText_recode :
    (c.recode ρ).inText (token.recode ρ) = (c.inText token).recode ρ := by
  unfold inText
  cases token <;> simp [Token.recode]

@[simp] theorem closeCell_recode : (c.recode ρ).closeCell = c.closeCell.recode ρ := by
  simp [closeCell]

/-- Text of a table goes to where it belongs. -/
def spill (c : Construction) (text : List Char) : Construction :=
  if text.all isFiller then text.foldl addChar c
  else text.foldl (fun c char => (c.fosterInBody (.character char)).next) c

/-- The tag ends foreign content. -/
def breaksOut (tag : Tag) : Bool :=
  breakoutTags.contains tag.name ||
    (tag.name == "font" && tag.attributes.any fun (key, _) =>
      ["color", "face", "size"].contains key)

theorem breaksOut_recode : breaksOut (tag.recode ρ) = breaksOut tag := by
  simp only [breaksOut, Tag.recode_name, Tag.recode_attributes, List.any_map,
    Function.comp_def, recoded_fst]

theorem foreignStart_eq :
    c.foreignStart tag =
      if breaksOut tag then c.breakOut (.startTag tag)
      else
        let vocabulary := (c.nameOf c.current).1
        (c.openForeign vocabulary
          (if vocabulary = .svg then respell graphicsNames tag.name else tag.name) tag).done := rfl

theorem bodyStart_recode :
    (c.recode ρ).bodyStart (tag.recode ρ) = (c.bodyStart tag).recode ρ := by
  have rest : ((c.bodyBlock? tag).or (c.bodyFormatting? tag)).map (Reply.recode ρ) =
      ((c.recode ρ).bodyBlock? (tag.recode ρ)).or
        ((c.recode ρ).bodyFormatting? (tag.recode ρ)) := by
    rw [bodyBlock?_recode, bodyFormatting?_recode]
    cases c.bodyBlock? tag <;> rfl
  rw [bodyStart, bodyStart, ← rest]
  generalize (c.bodyBlock? tag).or (c.bodyFormatting? tag) = others
  simp [Option.getD_map]

theorem inBody_recode :
    (c.recode ρ).inBody (token.recode ρ) = (c.inBody token).recode ρ := by
  unfold inBody
  cases token <;> simp [Token.recode, bodyStart_recode]

theorem afterBody_recode :
    (c.recode ρ).afterBody (token.recode ρ) = (c.afterBody token).recode ρ := by
  have body := inBody_recode (ρ := ρ) c token
  unfold afterBody
  cases token with
  | endTag tag => by_cases root : tag.name = "html" <;> simp [Token.recode, root]
  | _ => simp_all [Token.recode]

theorem afterAfterBody_recode :
    (c.recode ρ).afterAfterBody (token.recode ρ) = (c.afterAfterBody token).recode ρ := by
  have body := inBody_recode (ρ := ρ) c token
  unfold afterAfterBody
  cases token <;> simp_all [Token.recode]

theorem inFrameset_recode :
    (c.recode ρ).inFrameset (token.recode ρ) = (c.inFrameset token).recode ρ := by
  have body := inBody_recode (ρ := ρ) c token
  cases token <;> simp_all [inFrameset, Token.recode]

theorem afterFrameset_recode :
    (c.recode ρ).afterFrameset (token.recode ρ) = (c.afterFrameset token).recode ρ := by
  have body := inBody_recode (ρ := ρ) c token
  cases token with
  | endTag tag => by_cases root : tag.name = "html" <;> simp [afterFrameset, Token.recode, root]
  | _ => simp_all [afterFrameset, Token.recode]

theorem afterAfterFrameset_recode :
    (c.recode ρ).afterAfterFrameset (token.recode ρ) =
      (c.afterAfterFrameset token).recode ρ := by
  have body := inBody_recode (ρ := ρ) c token
  cases token <;> simp_all [afterAfterFrameset, Token.recode]

theorem fosterInBody_recode :
    (c.recode ρ).fosterInBody (token.recode ρ) = (c.fosterInBody token).recode ρ := by
  simp [fosterInBody, inBody_recode]

theorem tableChars_recode :
    (c.recode ρ).tableChars (token.recode ρ) = (c.tableChars token).recode ρ := by
  simp [tableChars, fosterInBody_recode]

theorem tableStart_recode :
    (c.recode ρ).tableStart (tag.recode ρ) = (c.tableStart tag).recode ρ := by
  have foster := fosterInBody_recode (ρ := ρ) c (.startTag tag)
  rw [Token.recode] at foster
  simp [tableStart, foster]

theorem inTable_recode :
    (c.recode ρ).inTable (token.recode ρ) = (c.inTable token).recode ρ := by
  have foster := fosterInBody_recode (ρ := ρ) c token
  have chars := tableChars_recode (ρ := ρ) c token
  have body := inBody_recode (ρ := ρ) c token
  have start := fun tag => tableStart_recode (ρ := ρ) c tag
  unfold inTable
  cases token <;> simp_all [Token.recode]

theorem spill_recode (text : List Char) :
    (c.recode ρ).spill (text.map ρ.char) = (c.spill text).recode ρ := by
  have blank : (text.map ρ.char).all isFiller = text.all isFiller := by
    simp [Function.comp_def]
  unfold spill
  rw [blank, List.foldl_map, List.foldl_map]
  split
  · exact List.foldl_hom (recode ρ) fun c char => addChar_recode c char
  · exact List.foldl_hom (recode ρ) fun c char =>
      congrArg Reply.next (fosterInBody_recode c (.character char))

theorem flushTableText_recode :
    (c.recode ρ).flushTableText = c.flushTableText.recode ρ := by
  have spilled := spill_recode (ρ := ρ) { c with tableText := [] } c.tableText.reverse
  rw [List.map_reverse] at spilled
  exact spilled

theorem inTableText_recode :
    (c.recode ρ).inTableText (token.recode ρ) = (c.inTableText token).recode ρ := by
  have flush := flushTableText_recode (ρ := ρ) c
  cases token with
  | character char => rfl
  | _ => simp [inTableText, Token.recode, flush]

theorem inCaption_recode :
    (c.recode ρ).inCaption (token.recode ρ) = (c.inCaption token).recode ρ := by
  have body := inBody_recode (ρ := ρ) c token
  cases token <;> simp_all [inCaption, Token.recode]

theorem inColumnGroup_recode :
    (c.recode ρ).inColumnGroup (token.recode ρ) = (c.inColumnGroup token).recode ρ := by
  have body := inBody_recode (ρ := ρ) c token
  unfold inColumnGroup
  cases token <;> simp_all [Token.recode]

theorem inTableBody_recode :
    (c.recode ρ).inTableBody (token.recode ρ) = (c.inTableBody token).recode ρ := by
  have table := inTable_recode (ρ := ρ) c token
  cases token <;> simp_all [inTableBody, Token.recode]

theorem inRow_recode :
    (c.recode ρ).inRow (token.recode ρ) = (c.inRow token).recode ρ := by
  have table := inTable_recode (ρ := ρ) c token
  cases token <;> simp_all [inRow, Token.recode]

theorem inCell_recode :
    (c.recode ρ).inCell (token.recode ρ) = (c.inCell token).recode ρ := by
  have body := inBody_recode (ρ := ρ) c token
  cases token <;> simp_all [inCell, Token.recode]

theorem inSelect_recode :
    (c.recode ρ).inSelect (token.recode ρ) = (c.inSelect token).recode ρ := by
  have body := inBody_recode (ρ := ρ) c token
  unfold inSelect
  cases token <;> simp_all [Token.recode]

theorem inSelectInTable_recode :
    (c.recode ρ).inSelectInTable (token.recode ρ) =
      (c.inSelectInTable token).recode ρ := by
  have select := inSelect_recode (ρ := ρ) c token
  cases token <;> simp_all [inSelectInTable, Token.recode]

theorem inTemplate_recode :
    (c.recode ρ).inTemplate (token.recode ρ) = (c.inTemplate token).recode ρ := by
  have body := inBody_recode (ρ := ρ) c token
  unfold inTemplate
  cases token with
  | startTag tag =>
      simp [Token.recode]
      rfl
  | _ => simp_all [Token.recode]

theorem byMode_recode :
    (c.recode ρ).byMode (token.recode ρ) = (c.byMode token).recode ρ := by
  unfold byMode
  rw [recode_mode]
  cases c.mode with
  | initial => exact atStart_recode c token
  | beforeHtml => exact beforeHtml_recode c token
  | beforeHead => exact beforeHead_recode c token
  | inHead => exact inHead_recode c token
  | afterHead => exact afterHead_recode c token
  | inBody => exact inBody_recode c token
  | text => exact inText_recode c token
  | inTable => exact inTable_recode c token
  | inTableText => exact inTableText_recode c token
  | inCaption => exact inCaption_recode c token
  | inColumnGroup => exact inColumnGroup_recode c token
  | inTableBody => exact inTableBody_recode c token
  | inRow => exact inRow_recode c token
  | inCell => exact inCell_recode c token
  | inSelect => exact inSelect_recode c token
  | inSelectInTable => exact inSelectInTable_recode c token
  | inTemplate => exact inTemplate_recode c token
  | afterBody => exact afterBody_recode c token
  | inFrameset => exact inFrameset_recode c token
  | afterFrameset => exact afterFrameset_recode c token
  | afterAfterBody => exact afterAfterBody_recode c token
  | afterAfterFrameset => exact afterAfterFrameset_recode c token

/-! ## Foreign elements -/

theorem breakOut_recode :
    (c.recode ρ).breakOut (token.recode ρ) = (c.breakOut token).recode ρ := by
  simp [breakOut, byMode_recode]

theorem foreignStart_recode :
    (c.recode ρ).foreignStart (tag.recode ρ) = (c.foreignStart tag).recode ρ := by
  have out := breakOut_recode (ρ := ρ) c (.startTag tag)
  rw [Token.recode] at out
  simp [foreignStart_eq, breaksOut_recode, out]

theorem foreignEnd_recode (first : Bool) (nodes : List Nat) :
    (c.recode ρ).foreignEnd (tag.recode ρ) first nodes =
      (c.foreignEnd tag first nodes).recode ρ := by
  have out := byMode_recode (ρ := ρ) c (.endTag tag)
  rw [Token.recode] at out
  induction nodes generalizing first with
  | nil => rfl
  | cons node rest induction =>
      cases rest with
      | nil => rfl
      | cons next others => simp [foreignEnd, out, induction]

theorem inForeign_recode :
    (c.recode ρ).inForeign (token.recode ρ) = (c.inForeign token).recode ρ := by
  have out := breakOut_recode (ρ := ρ) c token
  have start := fun tag => foreignStart_recode (ρ := ρ) c tag
  have close := fun tag first nodes => foreignEnd_recode (ρ := ρ) c tag first nodes
  have lost : (c.recode ρ).addChar replacementChar = (c.addChar replacementChar).recode ρ := by
    rw [← addChar_recode, ρ.replacement]
  cases token <;> simp_all [inForeign, Token.recode]

theorem isMarkupNote_recode (node : Nat) :
    (c.recode ρ).isMarkupNote node = c.isMarkupNote node := by
  simp only [isMarkupNote, recode_store, Store.attributes_recode, List.any_map]
  refine congrArg ((c.store.attributes node).any ·) (funext fun entry => ?_)
  by_cases encoding : entry.1 = "encoding"
  · simp only [Function.comp_apply, recoded, encoding, ρ.note]
  · rw [Function.comp_apply, recoded_fst, beq_eq_false_iff_ne.mpr encoding, Bool.false_and,
      Bool.false_and]

theorem meetsForeign_recode :
    (c.recode ρ).meetsForeign (token.recode ρ) = c.meetsForeign token := by
  unfold meetsForeign
  cases token <;> simp [Token.recode, isMarkupNote_recode]

/-! ## Tokens -/

theorem takeRounds_recode (rounds : Nat) :
    (c.recode ρ).takeRounds (token.recode ρ) rounds =
      ((c.takeRounds token rounds).1.recode ρ, (c.takeRounds token rounds).2) := by
  induction rounds generalizing c with
  | zero => rfl
  | succ rounds induction =>
      simp only [takeRounds, meetsForeign_recode, inForeign_recode,
        byMode_recode, ← reply_recode_ite, recode_again, recode_next,
        induction, recode_feedback]
      split <;> split <;> rfl

theorem take_keptLineFeed (kept : c.dropLineFeed = false) :
    c.take (.character '\n') = { c with dropLineFeed := false }.takeRounds (.character '\n')
      { c with dropLineFeed := false }.rounds := by
  simp only [take, kept, Bool.false_eq_true, if_false]

theorem take_otherChar {char : Char} (other : char ≠ '\n') :
    c.take (.character char) = { c with dropLineFeed := false }.takeRounds (.character char)
      { c with dropLineFeed := false }.rounds := by
  unfold take
  split
  · rename_i same
    cases same
  · rename_i same
    cases same
    exact absurd rfl other
  · rfl

theorem take_recode :
    (c.recode ρ).take (token.recode ρ) =
      ((c.take token).1.recode ρ, (c.take token).2) := by
  have rounds (token : Token) := takeRounds_recode (ρ := ρ) { c with dropLineFeed := false }
    token (rounds { c with dropLineFeed := false })
  cases token with
  | doctype doctype =>
      have added (name publicId systemId : String) := c.store.add_recode (ρ := ρ)
        (.doctype name publicId systemId)
      simp only [Content.recode] at added
      by_cases start : c.mode = .initial <;> simp [take, Token.recode, start, added]
  | character char =>
      by_cases line : char = '\n'
      · subst line
        have same : (Token.character '\n').recode ρ = .character '\n' := by
          rw [Token.recode, (ρ.lineFeed '\n').mpr rfl]
        by_cases drops : c.dropLineFeed = true
        · simp [same, take, drops]
        · have kept : c.dropLineFeed = false := by simpa using drops
          have taken := rounds (.character '\n')
          rw [same] at taken ⊢
          rw [take_keptLineFeed c kept, take_keptLineFeed (c.recode ρ) kept]
          exact taken
      · rw [take_otherChar c line, Token.recode,
          take_otherChar (c.recode ρ) (mt (ρ.lineFeed char).mp line)]
        exact rounds (.character char)
  | startTag tag => exact rounds (.startTag tag)
  | endTag tag => exact rounds (.endTag tag)
  | comment text => exact rounds (.comment text)
  | null => exact rounds .null
  | ending => exact rounds .ending

/-- The tokens with other values and characters are taken as well, and lead to the document with
these. -/
theorem accept_recode {tokens : List Token} {next : Construction}
    (accepted : consumer.accept c tokens = some next) :
    consumer.accept (c.recode ρ) (tokens.map (Token.recode ρ)) = some (next.recode ρ) := by
  induction tokens generalizing c with
  | nil =>
      cases accepted
      rfl
  | cons token rest induction =>
      have taken : consumer.take (c.recode ρ) (token.recode ρ) =
          ((c.take token).1.recode ρ, (c.take token).2) := take_recode c token
      rw [Consumer.accept] at accepted
      rw [List.map_cons, Consumer.accept, taken]
      split at accepted
      · rename_i middle proceeds
        have split_eq : c.take token = (middle, .proceed) := proceeds
        rw [split_eq]
        exact induction middle accepted
      · cases accepted
      · cases accepted

/-! ## Documents -/

theorem recode_empty : ({} : Construction).recode ρ = {} := by
  simp [recode, Store.recode, Entry.recode, Content.recode]

theorem ending_recode :
    ((c.recode ρ).take .ending).1.store = (c.take .ending).1.store.recode ρ :=
  congrArg (fun taken => taken.1.store) (take_recode (ρ := ρ) c .ending)

end Construction

/-- The document of a text whose tokens are all taken. -/
theorem document_eq {text : List Char} {tokens : List Token} {next : Construction}
    (delivers : Delivers text tokens) (prepared : prepare text = text)
    (accepted : Construction.consumer.accept {} tokens = some next) :
    document text = (next.take .ending).1.store.finish := by
  rw [document, delivers.run_eq prepared accepted]
  rfl

end Markup
end ReactiveTemplate
