import ReactiveTemplate.Proofs.Markup.Rules

/-!
# Tokens behind which markup goes on

Few tags ask for the text behind them to be read in another way.  Every other token leaves the
tokenizer as it is, whatever document it meets.
-/

namespace ReactiveTemplate
namespace Markup

/-- The token opens no element whose content is text alone. -/
def Token.Ordinary : Token → Prop
  | startTag tag => tag.name ∉ "plaintext" :: rawNames
  | _ => True

instance : DecidablePred Token.Ordinary := fun token => by
  cases token <;> unfold Token.Ordinary <;> infer_instance

namespace Construction

variable {c : Construction} {token : Token} {tag : Tag}

@[simp]
theorem feedback_done (c : Construction) : c.done.feedback = .proceed := rfl

@[simp]
theorem feedback_retry (c : Construction) (mode : Mode) :
    (c.retry mode).feedback = .proceed := rfl

@[simp]
theorem feedback_ite {p : Prop} [Decidable p] (first second : Reply) :
    (if p then first else second).feedback = if p then first.feedback else second.feedback :=
  apply_ite Reply.feedback p first second

/-! ## The head and the body -/

theorem feedback_headTag (c : Construction) (ordinary : (Token.startTag tag).Ordinary) :
    (c.headTag tag).feedback = .proceed := by
  simp only [Token.Ordinary, rawNames, List.mem_cons, List.not_mem_nil, or_false, not_or]
    at ordinary
  simp [headTag, ordinary]

theorem feedback_bodyBlock? (c : Construction) (ordinary : (Token.startTag tag).Ordinary)
    {reply : Reply} (found : c.bodyBlock? tag = some reply) : reply.feedback = .proceed := by
  simp only [Token.Ordinary, rawNames, List.mem_cons, List.not_mem_nil, or_false, not_or]
    at ordinary
  simp only [bodyBlock?, ordinary, if_false] at found
  split_ifs at found <;> cases found <;> rfl

theorem feedback_bodyFormatting? {reply : Reply} (found : c.bodyFormatting? tag = some reply) :
    reply.feedback = .proceed := by
  unfold bodyFormatting? at found
  split_ifs at found <;> cases found <;> rfl

theorem feedback_bodyInline (c : Construction) (ordinary : (Token.startTag tag).Ordinary) :
    (c.bodyInline tag).feedback = .proceed := by
  simp only [Token.Ordinary, rawNames, List.mem_cons, List.not_mem_nil, or_false, not_or]
    at ordinary
  simp [bodyInline, ordinary]

theorem feedback_bodyStart (c : Construction) (ordinary : (Token.startTag tag).Ordinary) :
    (c.bodyStart tag).feedback = .proceed := by
  have rest : ((c.bodyBlock? tag).getD ((c.bodyFormatting? tag).getD
      (c.bodyInline tag))).feedback = .proceed := by
    cases block : c.bodyBlock? tag with
    | some reply => exact feedback_bodyBlock? c ordinary block
    | none =>
        cases formatting : c.bodyFormatting? tag with
        | some reply => exact feedback_bodyFormatting? formatting
        | none => exact feedback_bodyInline c ordinary
  simp [bodyStart, rest, feedback_headTag c ordinary]

theorem feedback_inBody (c : Construction) (ordinary : token.Ordinary) :
    (c.inBody token).feedback = .proceed := by
  unfold inBody
  cases token with
  | startTag tag => exact feedback_bodyStart c ordinary
  | endTag tag => simp [bodyEnd]
  | ending => simp [endTemplate]
  | _ => rfl

theorem feedback_fosterInBody (c : Construction) (ordinary : token.Ordinary) :
    (c.fosterInBody token).feedback = .proceed :=
  feedback_inBody { c with fostering := true } ordinary

theorem feedback_inTable (c : Construction) (ordinary : token.Ordinary) :
    (c.inTable token).feedback = .proceed := by
  have foster := feedback_fosterInBody c ordinary
  have body := feedback_inBody c ordinary
  unfold inTable
  cases token with
  | startTag tag =>
      have head := feedback_headTag c ordinary
      simp [tableStart, foster, head]
  | ending => exact body
  | _ => simp [tableChars, foster]

theorem feedback_inSelect (c : Construction) (ordinary : token.Ordinary) :
    (c.inSelect token).feedback = .proceed := by
  have body := feedback_inBody c ordinary
  unfold inSelect
  cases token with
  | startTag tag =>
      have head := feedback_headTag c ordinary
      simp [body, head]
  | _ => simp [body]

/-! ## Modes -/

theorem feedback_byMode (c : Construction) (ordinary : token.Ordinary) :
    (c.byMode token).feedback = .proceed := by
  have body := feedback_inBody c ordinary
  have table := feedback_inTable c ordinary
  have select := feedback_inSelect c ordinary
  have head (c : Construction) (tag : Tag) (same : token = .startTag tag) :
      (c.headTag tag).feedback = .proceed := feedback_headTag c (same ▸ ordinary)
  unfold byMode inText inColumnGroup inTemplate afterBody afterAfterBody
  cases token <;> split <;>
    simp [atStart, beforeHtml, beforeHead, inHead, afterHead, inTableText, inCaption, inTableBody,
      inRow, inCell, inSelectInTable, endTemplate, inFrameset, afterFrameset, afterAfterFrameset,
      body, table, select, head]

/-! ## Taking tokens -/

theorem feedback_foreignEnd (c : Construction) (tag : Tag) (first : Bool) (nodes : List Nat) :
    (c.foreignEnd tag first nodes).feedback = .proceed := by
  have out := feedback_byMode c (show (Token.endTag tag).Ordinary from trivial)
  induction nodes generalizing first with
  | nil => rfl
  | cons node rest induction =>
      cases rest with
      | nil => rfl
      | cons second others => simp [foreignEnd, out, induction]

theorem feedback_inForeign (c : Construction) (ordinary : token.Ordinary) :
    (c.inForeign token).feedback = .proceed := by
  have out : (c.breakOut token).feedback = .proceed := feedback_byMode _ ordinary
  cases token with
  | startTag tag => simp [inForeign, foreignStart, out]
  | endTag tag => simp [inForeign, out, feedback_foreignEnd]
  | _ => rfl

theorem takeRounds_proceed (c : Construction) (ordinary : token.Ordinary) (rounds : Nat) :
    (c.takeRounds token rounds).2 = .proceed := by
  induction rounds generalizing c with
  | zero => rfl
  | succ rounds induction =>
      have proceeds : (if c.meetsForeign token then c.inForeign token
          else c.byMode token).feedback = .proceed := by
        simp [feedback_inForeign c ordinary, feedback_byMode c ordinary]
      rw [takeRounds]
      generalize (if c.meetsForeign token then c.inForeign token else c.byMode token) = reply at *
      split
      · exact induction _
      · exact proceeds

/-- Behind an ordinary token the text is read as before. -/
theorem take_proceed (c : Construction) (ordinary : token.Ordinary) :
    (c.take token).2 = .proceed := by
  have rounds := takeRounds_proceed { c with dropLineFeed := false } ordinary
    { c with dropLineFeed := false }.rounds
  unfold take
  dsimp only
  split
  · split <;> rfl
  · split
    · rfl
    · exact rounds
  · exact rounds

/-- Ordinary tokens are all taken. -/
theorem exists_accept {tokens : List Token} (ordinary : ∀ token ∈ tokens, token.Ordinary)
    (c : Construction) : ∃ next, consumer.accept c tokens = some next := by
  induction tokens generalizing c with
  | nil => exact ⟨c, rfl⟩
  | cons token rest induction =>
      rw [List.forall_mem_cons] at ordinary
      obtain ⟨next, accepted⟩ := induction ordinary.2 (c.take token).1
      have taken : consumer.take c token = ((c.take token).1, .proceed) := by
        rw [← take_proceed c ordinary.1]
        rfl
      refine ⟨next, ?_⟩
      rw [Consumer.accept, taken]
      exact accepted

end Construction
end Markup
end ReactiveTemplate
