import ReactiveTemplate.Proofs.Markup.Body

/-!
# The rules of tables and templates

What does not belong into a table is put before it, so that no tag is lost there but those of the
parts of tables.  The text of a table is kept back until it is known whether it is white space.
-/

namespace ReactiveTemplate
namespace Markup
namespace Construction

variable {c c' : Construction} {token : Token} {tag : Tag} {mode : Mode}

theorem Settled.fit (settled : c.Settled) (leads : c.Leads c') : c'.fitMode.Settled :=
  (settled.leads leads).toSteady.fitMode

/-- A token that brings nothing is used up in the mode that fits. -/
theorem Settled.servedFit (settled : c.Settled) (leads : c.Leads c') (unsure : token.isSure = false) :
    Served c token c'.fitMode.done :=
  (settled.fit leads).calm.served leads.keeps (Token.marks_of_isSure unsure ▸ nofun)

/-- A token that brings nothing is handed on to the mode that fits. -/
theorem Settled.retryFit (settled : c.Settled) (leads : c.Leads c') (unsure : token.isSure = false) :
    Served c token (c'.fitMode.retry c'.fitMode.mode) :=
  (settled.fit leads).calm.handed leads.keeps fun sure => by rw [unsure] at sure; cases sure

theorem Leads.retryUnsure (leads : c.Leads c') (settled : c.Settled)
    (settled_mode : mode.isSettled = true) (unsure : token.isSure = false) :
    Served c token (c'.retry mode) :=
  leads.retry settled settled_mode fun sure => by rw [unsure] at sure; cases sure

/-! ## After the body -/

theorem Settled.afterBody (settled : c.Settled) (mode_eq : c.mode = .afterBody)
    (plain : token.Plain) : Served c token (c.afterBody token) := by
  have start := Leads.refl settled.sound
  have back : Served c token (c.retry .inBody) :=
    start.retry settled rfl fun _ => by rw [mode_eq]; decide
  unfold Construction.afterBody
  cases token with
  | comment text => exact plain.elim
  | character char => exact .ite (fun _ => settled.inBody plain) fun _ => back
  | startTag tag => exact .ite (fun _ => settled.inBody plain) fun _ => back
  | endTag tag => exact .ite (fun _ => (start.brings rfl).goTo settled rfl) fun _ => back
  | ending => exact (start.brings rfl).served settled
  | _ => exact back

theorem Settled.afterAfterBody (settled : c.Settled) (mode_eq : c.mode = .afterAfterBody)
    (plain : token.Plain) : Served c token (c.afterAfterBody token) := by
  have start := Leads.refl settled.sound
  have back : Served c token (c.retry .inBody) :=
    start.retry settled rfl fun _ => by rw [mode_eq]; decide
  unfold Construction.afterAfterBody
  cases token with
  | comment text => exact plain.elim
  | character char => exact .ite (fun _ => settled.inBody plain) fun _ => back
  | startTag tag => exact .ite (fun _ => settled.inBody plain) fun _ => back
  | ending => exact (start.brings rfl).served settled
  | _ => exact back

/-! ## Tables -/

theorem Settled.fosterInBody (settled : c.Settled) (plain : token.Plain) :
    Served c token (c.fosterInBody token) := by
  have fostering : c.Leads { c with fostering := true } := (Leads.refl settled.sound).flag _ _ _ _ _ _
  exact (((settled.leads fostering).inBody plain).flag _ _ _ _ _ _).after (.refl _) rfl

theorem Settled.tableChars (settled : c.Settled) (tabular : c.mode.isTabular = true)
    (plain : token.Plain) (unsure : token.isSure = false) : Served c token (c.tableChars token) := by
  refine .ite (fun _ => ?_) fun _ => settled.fosterInBody plain
  refine Calm.handed ⟨⟨settled.sound.same rfl rfl rfl rfl, settled.templateModes⟩,
    .inr ⟨rfl, tabular⟩⟩ (.refl _) fun sure => ?_
  rw [unsure] at sure
  cases sure

theorem Settled.tableStart (settled : c.Settled) (plain : (Token.startTag tag).Plain) :
    Served c (.startTag tag) (c.tableStart tag) := by
  have allowed : tag.name ∉ avoided := fun member => plain (List.mem_cons_of_mem _ member)
  have start := Leads.refl settled.sound
  have unsure {name : String} (known : name ∈ contextual) (named : tag.name = name) :
      (Token.startTag tag).isSure = false := Token.isSure_of_contextual (named ▸ known)
  unfold Construction.tableStart
  refine .ite ?caption fun _ => .ite ?columns fun _ => .ite ?column fun _ => .ite ?rows fun _ =>
    .ite ?cells fun _ => .ite ?table fun _ => .ite ?head fun _ => .ite ?input fun _ =>
    .ite ?form fun _ => settled.fosterInBody plain
  case caption =>
    intro caption
    exact (((start.popTo tableScope).mark.openTag allowed).brings
      (unsure (by decide) caption)).goTo settled rfl
  case columns => exact fun columns => (allowed (columns ▸ by decide)).elim
  case column => exact fun column => (allowed (column ▸ by decide)).elim
  case rows =>
    intro rows
    exact (((start.popTo tableScope).openTag allowed).brings
      (plain.unsure rows (by decide))).goTo settled rfl
  case cells =>
    intro cells
    exact ((start.popTo tableScope).openNamed (by decide)).retryUnsure settled rfl
      (plain.unsure cells (by decide))
  case table =>
    intro table
    have known := unsure (by decide) table
    exact .ite (fun _ => settled.retryFit (start.popNamed "table") known)
      fun _ => (start.brings known).served settled
  case head => exact fun _ => settled.headTag allowed
  case input => exact fun _ => (start.addEmptyBrings tag).part.served settled
  case form =>
    intro form
    have known := unsure (by decide) form
    refine .ite (fun _ => (start.brings known).served settled) fun _ => ?_
    have empty := start.insertClosed .html tag.name tag.attributes
    exact ((empty.flag _ _ _ _ _ _).brings known).served settled

theorem Settled.inTable (settled : c.Settled) (tabular : c.mode.isTabular = true)
    (plain : token.Plain) : Served c token (c.inTable token) := by
  have start := Leads.refl settled.sound
  unfold Construction.inTable
  cases token with
  | character char => exact settled.tableChars tabular plain rfl
  | null => exact settled.tableChars tabular plain rfl
  | comment text => exact plain.elim
  | startTag tag => exact settled.tableStart plain
  | endTag tag =>
      refine .ite ?table fun _ => .ite ?part fun _ => .ite ?template fun _ =>
        settled.fosterInBody plain
      case table =>
        intro _
        split
        · exact settled.servedFit (start.popNamed "table") rfl
        · exact (start.brings rfl).served settled
      case part => exact fun _ => (start.brings rfl).served settled
      case template => exact fun _ => settled.servedCloseTemplate rfl
  | ending => exact settled.inBody plain
  | doctype doctype => exact settled.fosterInBody plain

/-! ## Text of a table -/

theorem Leads.foldl {step : Construction → Char → Construction}
    (one : ∀ c' char, c.Leads c' → c.Leads (step c' char)) (leads : c.Leads c') (text : List Char) :
    c.Leads (text.foldl step c') := by
  induction text generalizing c' with
  | nil => exact leads
  | cons char rest induction => exact induction (one c' char leads)

theorem Sound.flushTableText (sound : c.Sound) : c.Leads c.flushTableText := by
  have emptied : c.Leads { c with tableText := [] } := (Leads.refl sound).flag _ _ _ _ _ _
  refine .ite (emptied.foldl (fun _ char leads => leads.addChar char) _) ?_
  refine emptied.foldl (fun c' char leads => ?_) _
  have fostering : c.Leads { c' with fostering := true } := leads.flag _ _ _ _ _ _
  exact (fostering.inBody_character char).flag _ _ _ _ _ _

theorem Calm.inTableText (calm : c.Calm) (mode_eq : c.mode = .inTableText) (plain : token.Plain) :
    Served c token (c.inTableText token) := by
  have tabular : c.returnMode.isTabular = true :=
    (calm.mode.resolve_left (by rw [mode_eq]; decide)).2
  have start := Leads.refl calm.sound
  have flush : Served c token (c.flushTableText.retry c.returnMode) := by
    have leads := calm.sound.flushTableText
    refine Calm.handed ⟨⟨leads.sound.same rfl rfl rfl rfl, (calm.leads leads).templateModes⟩,
      .inl (Mode.isSettled_of_isTabular tabular)⟩ leads.keeps fun _ => ?_
    show c.returnMode.height < c.mode.height
    rw [mode_eq, Mode.height_of_isTabular tabular]
    decide
  unfold Construction.inTableText
  cases token with
  | null => exact (start.brings rfl).serve calm
  | character char => exact ((start.flag _ _ _ _ _ _).brings rfl).serve calm
  | comment text => exact plain.elim
  | _ => exact flush

/-! ## Parts of tables -/

theorem Settled.inCaption (settled : c.Settled) (plain : token.Plain) :
    Served c token (c.inCaption token) := by
  have start := Leads.refl settled.sound
  have closed := ((start.closeImplied impliedEnds).popNamed "caption").clearFormatting
  have leave (closing : Bool) (unsure : token.isSure = false) : Served c token
      (if c.inTableScope ["caption"] then
        let c := ((c.closeImplied impliedEnds).popNamed "caption").clearFormatting
        if closing then (c.goTo .inTable).done else c.retry .inTable
      else c.done) :=
    .ite (fun _ => .ite (fun _ => (closed.brings unsure).goTo settled rfl)
      fun _ => closed.retryUnsure settled rfl unsure) fun _ => (start.brings unsure).served settled
  unfold Construction.inCaption
  cases token with
  | comment text => exact plain.elim
  | startTag tag =>
      exact .ite (fun part => leave false (plain.unsure part (by decide)))
        fun _ => settled.inBody plain
  | endTag tag =>
      exact .ite (fun _ => leave false rfl) fun _ => .ite (fun _ => leave true rfl) fun _ =>
        .ite (fun _ => (start.brings rfl).served settled) fun _ => settled.inBody plain
  | _ => exact settled.inBody plain

theorem Settled.inTableBody (settled : c.Settled) (tabular : c.mode.isTabular = true)
    (plain : token.Plain) : Served c token (c.inTableBody token) := by
  have start := Leads.refl settled.sound
  have leave (unsure : token.isSure = false) : Served c token
      (if c.inTableScope ["table", "tbody", "tfoot"] then
        (c.popTo tableBodyContext).pop.retry .inTable
      else c.done) :=
    .ite (fun _ => (start.popTo tableBodyContext).pop.retryUnsure settled rfl unsure)
      fun _ => (start.brings unsure).served settled
  unfold Construction.inTableBody
  cases token with
  | startTag tag =>
      have allowed : tag.name ∉ avoided := fun member => plain (List.mem_cons_of_mem _ member)
      refine .ite ?row fun _ => .ite ?cell fun _ => .ite ?part fun _ => settled.inTable tabular plain
      case row =>
        intro row
        exact (((start.popTo tableBodyContext).openTag allowed).brings
          (Token.isSure_of_contextual (by rw [row]; decide))).goTo settled rfl
      case cell =>
        intro cell
        have known : tag.name ∈ contextual := by
          rcases cell with cell | cell <;> rw [cell] <;> decide
        exact ((start.popTo tableBodyContext).openNamed (by decide)).retryUnsure settled rfl
          (Token.isSure_of_contextual known)
      case part => exact fun part => leave (plain.unsure part (by decide))
  | endTag tag =>
      refine .ite ?rows fun _ => .ite (fun _ => leave rfl) fun _ => .ite ?other fun _ =>
        settled.inTable tabular plain
      case rows =>
        intro _
        split
        · exact ((start.popTo tableBodyContext).pop.brings rfl).goTo settled rfl
        · exact (start.brings rfl).served settled
      case other => exact fun _ => (start.brings rfl).served settled
  | _ => exact settled.inTable tabular plain

theorem Settled.inRow (settled : c.Settled) (tabular : c.mode.isTabular = true)
    (plain : token.Plain) : Served c token (c.inRow token) := by
  have start := Leads.refl settled.sound
  have closed := (start.popTo tableRowContext).pop
  have leave (unsure : token.isSure = false) : Served c token
      (if c.inTableScope ["tr"] then (c.popTo tableRowContext).pop.retry .inTableBody else c.done) :=
    .ite (fun _ => closed.retryUnsure settled rfl unsure)
      fun _ => (start.brings unsure).served settled
  unfold Construction.inRow
  cases token with
  | startTag tag =>
      have allowed : tag.name ∉ avoided := fun member => plain (List.mem_cons_of_mem _ member)
      refine .ite ?cell fun _ => .ite ?part fun _ => settled.inTable tabular plain
      case cell =>
        intro cell
        have known : tag.name ∈ contextual := by
          rcases cell with cell | cell <;> rw [cell] <;> decide
        have opened := ((start.popTo tableRowContext).openTag allowed).mark
        exact (opened.brings (Token.isSure_of_contextual known)).goTo settled rfl
      case part => exact fun part => leave (plain.unsure part (by decide))
  | endTag tag =>
      refine .ite ?row fun _ => .ite (fun _ => leave rfl) fun _ => .ite ?rows fun _ =>
        .ite ?other fun _ => settled.inTable tabular plain
      case row =>
        intro _
        split
        · exact (closed.brings rfl).goTo settled rfl
        · exact (start.brings rfl).served settled
      case rows => exact fun _ => .ite (fun _ => leave rfl) fun _ => (start.brings rfl).served settled
      case other => exact fun _ => (start.brings rfl).served settled
  | _ => exact settled.inTable tabular plain

theorem Leads.closeCell (leads : c.Leads c') : c.Leads c'.closeCell :=
  ((leads.closeImplied impliedEnds).popThrough _).clearFormatting

theorem Settled.inCell (settled : c.Settled) (plain : token.Plain) :
    Served c token (c.inCell token) := by
  have start := Leads.refl settled.sound
  have leave (names : List String) (unsure : token.isSure = false) : Served c token
      (if c.inTableScope names then c.closeCell.retry .inRow else c.done) :=
    .ite (fun _ => start.closeCell.retryUnsure settled rfl unsure)
      fun _ => (start.brings unsure).served settled
  unfold Construction.inCell
  cases token with
  | startTag tag =>
      exact .ite (fun part => leave _ (plain.unsure part (by decide))) fun _ => settled.inBody plain
  | endTag tag =>
      refine .ite ?cell fun _ => .ite ?other fun _ => .ite (fun _ => leave _ rfl) fun _ =>
        settled.inBody plain
      case cell =>
        intro _
        split
        · exact (((start.closeImplied impliedEnds).popNamed tag.name).clearFormatting.brings
            rfl).goTo settled rfl
        · exact (start.brings rfl).served settled
      case other => exact fun _ => (start.brings rfl).served settled
  | _ => exact settled.inBody plain

/-! ## Templates -/

theorem Settled.inTemplate (settled : c.Settled) (mode_eq : c.mode = .inTemplate)
    (plain : token.Plain) : Served c token (c.inTemplate token) := by
  have start := Leads.refl settled.sound
  have turn (mode : Mode) (settled_mode : mode.isSettled = true) (low : mode.height = 0) :
      Served c token ({ c with templateModes := mode :: c.templateModes.tail }.retry mode) := by
    refine Calm.handed ⟨⟨settled.sound.same rfl rfl rfl rfl, ?_⟩, .inl settled_mode⟩ (.refl _)
      fun _ => ?_
    · exact List.forall_mem_cons.mpr ⟨settled_mode,
        fun other member => settled.templateModes other (List.mem_of_mem_tail member)⟩
    · show mode.height < c.mode.height
      rw [mode_eq, low]
      decide
  unfold Construction.inTemplate
  cases token with
  | character char => exact settled.inBody plain
  | comment text => exact plain.elim
  | startTag tag =>
      have allowed : tag.name ∉ avoided := fun member => plain (List.mem_cons_of_mem _ member)
      refine .ite (fun _ => settled.headTag allowed) fun _ => .ite (fun _ => turn _ rfl rfl) fun _ =>
        .ite ?column fun _ => .ite (fun _ => turn _ rfl rfl) fun _ =>
        .ite (fun _ => turn _ rfl rfl) fun _ => turn _ rfl rfl
      case column => exact fun column => (allowed (column ▸ by decide)).elim
  | endTag tag =>
      exact .ite (fun _ => settled.servedCloseTemplate rfl) fun _ => (start.brings rfl).served settled
  | ending => exact settled.endTemplate rfl
  | _ => exact (start.brings rfl).served settled

/-! ## All modes -/

/-- Each mode has rules that lose nothing. -/
theorem Calm.byMode (calm : c.Calm) (plain : token.Plain) : Served c token (c.byMode token) := by
  have settled {mode : Mode} (mode_eq : c.mode = mode) (other : mode ≠ .inTableText) : c.Settled :=
    ⟨calm.toSteady, calm.mode.resolve_right fun text => other (mode_eq.symm.trans text.1)⟩
  unfold Construction.byMode
  cases mode_eq : c.mode with
  | initial => exact (settled mode_eq (by decide)).atStart mode_eq plain
  | beforeHtml => exact (settled mode_eq (by decide)).beforeHtml mode_eq plain
  | beforeHead => exact (settled mode_eq (by decide)).beforeHead mode_eq plain
  | inHead => exact (settled mode_eq (by decide)).inHead mode_eq plain
  | afterHead => exact (settled mode_eq (by decide)).afterHead mode_eq plain
  | inBody => exact (settled mode_eq (by decide)).inBody plain
  | inTable => exact (settled mode_eq (by decide)).inTable (by rw [mode_eq]; rfl) plain
  | inTableText => exact calm.inTableText mode_eq plain
  | inCaption => exact (settled mode_eq (by decide)).inCaption plain
  | inTableBody => exact (settled mode_eq (by decide)).inTableBody (by rw [mode_eq]; rfl) plain
  | inRow => exact (settled mode_eq (by decide)).inRow (by rw [mode_eq]; rfl) plain
  | inCell => exact (settled mode_eq (by decide)).inCell plain
  | inTemplate => exact (settled mode_eq (by decide)).inTemplate mode_eq plain
  | afterBody => exact (settled mode_eq (by decide)).afterBody mode_eq plain
  | afterAfterBody => exact (settled mode_eq (by decide)).afterAfterBody mode_eq plain
  | text | inColumnGroup | inSelect | inSelectInTable | inFrameset | afterFrameset
    | afterAfterFrameset =>
      have impossible := (settled mode_eq (by decide)).mode
      rw [mode_eq] at impossible
      cases impossible

end Construction
end Markup
end ReactiveTemplate
