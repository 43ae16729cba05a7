import ReactiveTemplate.Proofs.Component.Completeness
import ReactiveTemplate.Proofs.Component.Termination

/-!
# Where nodes end up

A node that is reached through elements and fragments stays in a tree whose usages are replaced, and
a usage that is reached in this way is replaced by nodes of the result.  Placing the content for a
slot fills a template: what is reached in the template is found again, and the content stands where
slot elements were reached.
-/

namespace ReactiveTemplate

/-- Every element may be entered. -/
def anyTag (_ : String) : Bool := true

/-- Every element may be entered that is no slot element. -/
def exceptSlot (tag : String) : Bool := tag != "slot"

namespace Node

/-! ## Nodes that are reached -/

mutual

/-- A node and those below it, through elements that may be entered and through fragments. -/
def reach (enter : String → Bool) : Node → List Node
  | element tag attributes children site =>
    element tag attributes children site :: if enter tag then reachOfList enter children else []
  | component name attributes children site => [component name attributes children site]
  | conditional id condition consequent alternate site =>
    conditional id condition consequent alternate site ::
      (reachOfList enter consequent ++ reachOfList enter alternate)
  | optional id condition branch site =>
    optional id condition branch site :: reachOfList enter branch
  | loop id source binder body site => loop id source binder body site :: reachOfList enter body
  | text value site => [text value site]
  | expression e => [expression e]
  | doctype name publicId systemId location => [doctype name publicId systemId location]

/-- The nodes of a list and those below them. -/
def reachOfList (enter : String → Bool) : List Node → List Node
  | [] => []
  | node :: rest => reach enter node ++ reachOfList enter rest

end

/-- The nodes directly inside an element that may be entered, or inside a fragment. -/
def insides (enter : String → Bool) : Node → List Node
  | element tag _ children _ => if enter tag then children else []
  | conditional _ _ consequent alternate _ => consequent ++ alternate
  | optional _ _ branch _ | loop _ _ _ branch _ => branch
  | component .. | text .. | expression _ | doctype .. => []

/-- The nodes directly inside those of a list. -/
def insidesOfList (enter : String → Bool) (nodes : List Node) : List Node :=
  nodes.flatMap (insides enter)

/-- The node is one of the fragments that expressions turn into. -/
def isFragment : Node → Bool
  | conditional .. | optional .. | loop .. => true
  | _ => false

variable {enter : String → Bool} {node : Node} {nodes nodes' : List Node}
variable {related : Expression → Expression → Prop}

theorem reachOfList_append (left right : List Node) :
    reachOfList enter (left ++ right) = reachOfList enter left ++ reachOfList enter right := by
  induction left with
  | nil => rfl
  | cons node rest induction =>
      rw [List.cons_append, reachOfList, reachOfList, induction, List.append_assoc]

theorem reach_eq (node : Node) :
    reach enter node = node :: reachOfList enter (insides enter node) := by
  cases node with
  | element tag attributes children site =>
      rw [reach, insides]
      split <;> rfl
  | conditional id condition consequent alternate site =>
      rw [reach, insides, reachOfList_append]
  | _ => rfl

theorem mem_reachOfList :
    node ∈ reachOfList enter nodes ↔ ∃ top ∈ nodes, node ∈ reach enter top := by
  induction nodes with
  | nil => simp [reachOfList]
  | cons first rest induction => simp [reachOfList, induction]

theorem mem_reachOfList_of_mem (member : node ∈ nodes) : node ∈ reachOfList enter nodes :=
  mem_reachOfList.mpr ⟨node, member, by rw [reach_eq]; exact List.mem_cons_self⟩

theorem reachOfList_subset (inside : nodes ⊆ nodes') :
    reachOfList enter nodes ⊆ reachOfList enter nodes' := by
  intro node member
  obtain ⟨top, own, found⟩ := mem_reachOfList.mp member
  exact mem_reachOfList.mpr ⟨top, inside own, found⟩

@[simp]
theorem insidesOfList_cons (node : Node) (rest : List Node) :
    insidesOfList enter (node :: rest) = insides enter node ++ insidesOfList enter rest :=
  List.flatMap_cons

@[simp]
theorem insidesOfList_append (left right : List Node) :
    insidesOfList enter (left ++ right) = insidesOfList enter left ++ insidesOfList enter right :=
  List.flatMap_append

theorem heightOfList_insides (enter : String → Bool) (node : Node) :
    insides enter node = [] ∨ heightOfList (insides enter node) < node.height := by
  cases node with
  | element tag attributes children site =>
      rw [insides]
      split
      · exact .inr (Nat.lt_succ_self _)
      · exact .inl rfl
  | conditional id condition consequent alternate site =>
      right
      rw [insides, heightOfList_append]
      exact Nat.lt_succ_self _
  | optional | loop => exact .inr (Nat.lt_succ_self _)
  | component | text | expression | doctype => exact .inl rfl

/-- Induction over what is reached: into a node, and behind it. -/
@[elab_as_elim]
theorem reach_induction (enter : String → Bool) {motive : List Node → Prop} (nil : motive [])
    (cons : ∀ node rest, motive (insides enter node) → motive rest → motive (node :: rest))
    (nodes : List Node) : motive nodes := by
  induction height : heightOfList nodes using Nat.strongRecOn generalizing nodes with
  | ind bound deeper =>
      induction nodes with
      | nil => exact nil
      | cons node rest behind =>
          rw [heightOfList] at height
          refine cons node rest ?_ ?_
          · rcases heightOfList_insides enter node with empty | lower
            · rw [empty]
              exact nil
            · exact deeper _ (by omega) _ rfl
          · rcases Nat.lt_or_ge (heightOfList rest) bound with lower | same
            · exact deeper _ lower rest rfl
            · exact behind (by omega)

/-- What is reached further inside is reached. -/
theorem reachOfList_insidesOfList_subset (nodes : List Node) :
    reachOfList enter (insidesOfList enter nodes) ⊆ reachOfList enter nodes := by
  induction nodes with
  | nil => exact List.Subset.refl _
  | cons first rest induction =>
      rw [insidesOfList_cons, reachOfList_append, reachOfList, reach_eq]
      exact List.append_subset.mpr
        ⟨fun _ member => List.mem_append_left _ (List.mem_cons_of_mem _ member),
          List.subset_append_of_subset_right _ induction⟩

/-- What is reached corresponds to something that is reached in a tree that is alike. -/
theorem Alike.reach (alike : Alike related nodes nodes')
    (member : node ∈ reachOfList enter nodes) :
    ∃ node' ∈ reachOfList enter nodes', Alike related [node] [node'] := by
  -- a node is the first one of the list, or inside it, or it is reached behind it
  have step {first first' : Node} {rest rest' : List Node} (own : Alike related [first] [first'])
      (into : node ∈ reachOfList enter (insides enter first) →
        ∃ node' ∈ reachOfList enter (insides enter first'), Alike related [node] [node'])
      (behind : node ∈ reachOfList enter rest →
        ∃ node' ∈ reachOfList enter rest', Alike related [node] [node'])
      (member : node ∈ reachOfList enter (first :: rest)) :
      ∃ node' ∈ reachOfList enter (first' :: rest'), Alike related [node] [node'] := by
    rw [reachOfList, reach_eq, List.mem_append, List.mem_cons] at member
    rw [reachOfList, reach_eq]
    rcases member with (rfl | deeper) | later
    · exact ⟨first', List.mem_append_left _ List.mem_cons_self, own⟩
    · obtain ⟨node', found, same⟩ := into deeper
      exact ⟨node', List.mem_append_left _ (List.mem_cons_of_mem _ found), same⟩
    · obtain ⟨node', found, same⟩ := behind later
      exact ⟨node', List.mem_append_right _ found, same⟩
  induction alike with
  | nil => cases member
  | @element tag _ _ _ _ _ _ _ _ attributes children _ into behind =>
      refine step (.element attributes children .nil) (fun deeper => ?_) behind member
      rw [insides] at deeper ⊢
      split at deeper
      · rename_i entered
        rw [if_pos entered]
        exact into deeper
      · cases deeper
  | component attributes children _ _ behind =>
      exact step (.component attributes children .nil) (fun deeper => by cases deeper) behind member
  | text _ behind => exact step (.text .nil) (fun deeper => by cases deeper) behind member
  | expression same _ behind =>
      exact step (.expression same .nil) (fun deeper => by cases deeper) behind member
  | conditional same first second _ left right behind =>
      refine step (.conditional same first second .nil) (fun deeper => ?_) behind member
      rw [insides, reachOfList_append, List.mem_append] at deeper
      rw [insides, reachOfList_append]
      rcases deeper with inFirst | inSecond
      · obtain ⟨node', found, same⟩ := left inFirst
        exact ⟨node', List.mem_append_left _ found, same⟩
      · obtain ⟨node', found, same⟩ := right inSecond
        exact ⟨node', List.mem_append_right _ found, same⟩
  | optional same branch _ into behind =>
      exact step (.optional same branch .nil) into behind member
  | loop same body _ into behind => exact step (.loop same body .nil) into behind member
  | doctype _ behind => exact step (.doctype .nil) (fun deeper => by cases deeper) behind member

/-- What is alike to two lists one after the other is so as well. -/
theorem Alike.of_append {left right result : List Node}
    (alike : Alike related (left ++ right) result) :
    ∃ left' right', result = left' ++ right' ∧ Alike related left left' ∧
      Alike related right right' := by
  induction left generalizing result with
  | nil => exact ⟨[], result, rfl, .nil, alike⟩
  | cons node rest induction =>
      cases alike with
      | element attributes children behind =>
          obtain ⟨left', right', rfl, first, second⟩ := induction behind
          exact ⟨_ :: left', right', rfl, .element attributes children first, second⟩
      | component attributes children behind =>
          obtain ⟨left', right', rfl, first, second⟩ := induction behind
          exact ⟨_ :: left', right', rfl, .component attributes children first, second⟩
      | text behind =>
          obtain ⟨left', right', rfl, first, second⟩ := induction behind
          exact ⟨_ :: left', right', rfl, .text first, second⟩
      | expression same behind =>
          obtain ⟨left', right', rfl, first, second⟩ := induction behind
          exact ⟨_ :: left', right', rfl, .expression same first, second⟩
      | conditional same consequent alternate behind =>
          obtain ⟨left', right', rfl, first, second⟩ := induction behind
          exact ⟨_ :: left', right', rfl, .conditional same consequent alternate first, second⟩
      | optional same branch behind =>
          obtain ⟨left', right', rfl, first, second⟩ := induction behind
          exact ⟨_ :: left', right', rfl, .optional same branch first, second⟩
      | loop same body behind =>
          obtain ⟨left', right', rfl, first, second⟩ := induction behind
          exact ⟨_ :: left', right', rfl, .loop same body first, second⟩
      | doctype behind =>
          obtain ⟨left', right', rfl, first, second⟩ := induction behind
          exact ⟨_ :: left', right', rfl, .doctype first, second⟩

/-! ## Trees without usages -/

/-- No usage is left in the nodes. -/
def Resolved (nodes : List Node) : Prop := Everywhere (fun node => node.isUsage = false) nodes

theorem Resolved.ordinary (resolved : Resolved nodes) : ∀ node ∈ nodes, node.isUsage = false := by
  intro node member
  obtain ⟨before, behind, rfl⟩ := List.append_of_mem member
  rw [Resolved, everywhere_append, everywhere_cons] at resolved
  exact resolved.2.1.1

theorem Resolved.childLists (resolved : Resolved [node]) :
    ∀ below ∈ node.childLists, Resolved below :=
  (everywhere_singleton.mp resolved).2

theorem Resolved.reach (resolved : Resolved nodes) (member : node ∈ reachOfList enter nodes) :
    Resolved [node] := by
  induction nodes using reach_induction enter with
  | nil => cases member
  | cons first rest into behind =>
      rw [Resolved, everywhere_head_tail] at resolved
      rw [reachOfList, reach_eq, List.mem_append, List.mem_cons] at member
      rcases member with (rfl | deeper) | later
      · exact resolved.1
      · refine into ?_ deeper
        have inside : ∀ below ∈ first.childLists, Resolved below := Resolved.childLists resolved.1
        cases first with
        | element tag attributes children site =>
            rw [insides]
            split
            · exact inside children (List.mem_singleton_self _)
            · exact everywhere_nil
        | conditional id condition consequent alternate site =>
            exact everywhere_append.mpr ⟨inside _ List.mem_cons_self,
              inside _ (List.mem_cons_of_mem _ List.mem_cons_self)⟩
        | optional id condition branch site => exact inside branch (List.mem_singleton_self _)
        | loop id source binder body site => exact inside body (List.mem_singleton_self _)
        | component | text | expression | doctype => exact everywhere_nil
      · exact behind resolved.2 later

/-- Trees that are alike have their usages in the same places. -/
theorem Alike.resolved (alike : Alike related nodes nodes') (resolved : Resolved nodes) :
    Resolved nodes' := by
  unfold Resolved at resolved ⊢
  induction alike with
  | nil => exact resolved
  | component => cases resolved _ List.mem_cons_self
  | element _ _ _ into behind | optional _ _ _ into behind | loop _ _ _ into behind =>
      rw [everywhere_cons] at resolved ⊢
      refine ⟨⟨rfl, fun below member => ?_⟩, behind resolved.2⟩
      rw [List.mem_singleton.mp member]
      exact into (resolved.1.2 _ (List.mem_singleton_self _))
  | conditional _ _ _ _ left right behind =>
      rw [everywhere_cons] at resolved ⊢
      refine ⟨⟨rfl, fun below member => ?_⟩, behind resolved.2⟩
      rcases List.mem_cons.mp member with rfl | member
      · exact left (resolved.1.2 _ List.mem_cons_self)
      · rw [List.mem_singleton.mp member]
        exact right (resolved.1.2 _ (List.mem_cons_of_mem _ (List.mem_singleton_self _)))
  | text _ behind | expression _ _ behind | doctype _ behind =>
      rw [everywhere_cons] at resolved ⊢
      exact ⟨⟨rfl, nofun⟩, behind resolved.2⟩

end Node

namespace Component

open Node

/-! ## Nodes that are resolved -/

section

variable {one : Usage → Action (List Node)} {usage : Usage} {before : Progress}

theorem resolveNodes_append {left right left' right' : List Node}
    {progress middle progress' : Progress}
    (first : resolveNodes one left progress = .ok (left', middle))
    (second : resolveNodes one right middle = .ok (right', progress')) :
    resolveNodes one (left ++ right) progress = .ok (left' ++ right', progress') := by
  induction left generalizing progress left' with
  | nil =>
      cases first
      exact second
  | cons node rest induction =>
      simp only [resolveNodes, bind_eq_ok] at first
      obtain ⟨⟨made, after⟩, made_ok, ⟨others, last⟩, rest_ok, ok⟩ := first
      cases ok
      simp only [List.cons_append, resolveNodes, bind_eq_ok]
      refine ⟨(made, after), made_ok, (others ++ right', progress'), induction rest_ok, ?_⟩
      rw [List.append_assoc]
      rfl

/-- A node is still there: an element has its tag and its attributes. -/
def Stays : Node → Node → Prop
  | .element tag attributes _ site, node' =>
    ∃ children, node' = .element tag attributes children site
  | _, _ => True

/-- A node that is no usage stays, and what is inside it is resolved. -/
theorem resolveNode_insides {node : Node} (ordinary : node.isUsage = false) {progress : Progress}
    {result : List Node} {progress' : Progress}
    (ok : resolveNode one node progress = .ok (result, progress')) :
    ∃ node', result = [node'] ∧ Stays node node' ∧
      resolveNodes one (insides anyTag node) progress = .ok (insides anyTag node', progress') := by
  cases node with
  | component => cases ordinary
  | element tag attributes children site =>
      simp only [resolveNode, bind_eq_ok] at ok
      obtain ⟨⟨children', last⟩, into, ok⟩ := ok
      cases ok
      exact ⟨_, rfl, ⟨children', rfl⟩, into⟩
  | conditional id condition consequent alternate site =>
      simp only [resolveNode, bind_eq_ok] at ok
      obtain ⟨⟨consequent', middle⟩, first, ⟨alternate', last⟩, second, ok⟩ := ok
      cases ok
      exact ⟨_, rfl, trivial, resolveNodes_append first second⟩
  | optional id condition branch site | loop id condition binder branch site =>
      simp only [resolveNode, bind_eq_ok] at ok
      obtain ⟨⟨branch', last⟩, into, ok⟩ := ok
      cases ok
      exact ⟨_, rfl, trivial, into⟩
  | text | expression | doctype =>
      rw [resolveNode] at ok
      cases ok
      exact ⟨_, rfl, trivial, rfl⟩

/-- Resolving nodes replaces a usage, after some steps. -/
inductive Asks (one : Usage → Action (List Node)) (usage : Usage) (before : Progress) :
    List Node → Progress → Prop where
  /-- The usage comes first. -/
  | here {rest : List Node} : Asks one usage before (usage.node :: rest) before
  /-- The usage is inside the node that comes first. -/
  | inside {node : Node} {rest : List Node} {progress : Progress} :
      Asks one usage before (insides anyTag node) progress →
      Asks one usage before (node :: rest) progress
  /-- The usage is behind that node. -/
  | behind {node : Node} {rest made : List Node} {progress middle : Progress} :
      resolveNode one node progress = .ok (made, middle) → Asks one usage before rest middle →
      Asks one usage before (node :: rest) progress

/-- The result holds what the usage is replaced by. -/
theorem Asks.answered {nodes : List Node} {progress progress' : Progress} {result : List Node}
    (asks : Asks one usage before nodes progress)
    (ok : resolveNodes one nodes progress = .ok (result, progress')) :
    ∃ made after, one usage before = .ok (made, after) ∧
      reachOfList anyTag made ⊆ reachOfList anyTag result := by
  induction asks generalizing result progress' with
  | here =>
      simp only [Usage.node, resolveNodes, resolveNode, bind_eq_ok] at ok
      obtain ⟨⟨made, middle⟩, replaced, ⟨others, last⟩, -, ok⟩ := ok
      cases ok
      rw [reachOfList_append]
      exact ⟨made, middle, replaced, List.subset_append_left _ _⟩
  | @inside node rest progress asks induction =>
      simp only [resolveNodes, bind_eq_ok] at ok
      obtain ⟨⟨first, middle⟩, first_ok, ⟨others, last⟩, -, ok⟩ := ok
      cases ok
      have ordinary : node.isUsage = false := by
        cases node with
        | component => cases asks
        | _ => rfl
      obtain ⟨node', rfl, -, into⟩ := resolveNode_insides ordinary first_ok
      obtain ⟨made, after, replaced, within⟩ := induction into
      refine ⟨made, after, replaced, ?_⟩
      rw [List.singleton_append, reachOfList, reach_eq]
      exact List.subset_append_of_subset_left _ (List.subset_cons_of_subset _ within)
  | behind first _ induction =>
      simp only [resolveNodes, bind_eq_ok] at ok
      obtain ⟨⟨made, middle⟩, first', ⟨others, last⟩, rest_ok, ok⟩ := ok
      cases ok
      rw [first, Except.ok.injEq, Prod.mk.injEq] at first'
      obtain ⟨rfl, rfl⟩ := first'
      obtain ⟨made', after, replaced, within⟩ := induction rest_ok
      rw [reachOfList_append]
      exact ⟨made', after, replaced, List.subset_append_of_subset_right _ within⟩

/-- A usage that is reached is replaced at some point. -/
theorem asks_of_reach {nodes : List Node} {progress progress' : Progress} {result : List Node}
    (member : usage.node ∈ reachOfList anyTag nodes)
    (ok : resolveNodes one nodes progress = .ok (result, progress')) :
    ∃ before, Asks one usage before nodes progress := by
  induction nodes using reach_induction anyTag generalizing progress progress' result with
  | nil => cases member
  | cons node rest into behind =>
      simp only [resolveNodes, bind_eq_ok] at ok
      obtain ⟨⟨first, middle⟩, first_ok, ⟨others, last⟩, rest_ok, -⟩ := ok
      rw [reachOfList, reach_eq, List.mem_append, List.mem_cons] at member
      rcases member with (same | deeper) | later
      · exact ⟨progress, same ▸ .here⟩
      · have ordinary : node.isUsage = false := by
          cases node with
          | component => cases deeper
          | _ => rfl
        obtain ⟨node', -, -, inner_ok⟩ := resolveNode_insides ordinary first_ok
        obtain ⟨before, asks⟩ := into deeper inner_ok
        exact ⟨before, .inside asks⟩
      · obtain ⟨before, asks⟩ := behind later rest_ok
        exact ⟨before, .behind first_ok asks⟩

/-- What a node becomes is among what the nodes around it become. -/
theorem resolveNodes_mem {nodes result : List Node} {node : Node} {progress progress' : Progress}
    (member : node ∈ nodes) (ok : resolveNodes one nodes progress = .ok (result, progress')) :
    ∃ before made after, resolveNode one node before = .ok (made, after) ∧ made ⊆ result := by
  induction nodes generalizing progress result with
  | nil => cases member
  | cons first rest induction =>
      simp only [resolveNodes, bind_eq_ok] at ok
      obtain ⟨⟨made, middle⟩, made_ok, ⟨others, last⟩, rest_ok, ok⟩ := ok
      cases ok
      rcases List.mem_cons.mp member with rfl | behind
      · exact ⟨progress, made, middle, made_ok, List.subset_append_left _ _⟩
      · obtain ⟨before, made', after, made_ok', inside⟩ := induction behind rest_ok
        exact ⟨before, made', after, made_ok', List.subset_append_of_subset_right _ inside⟩

mutual

theorem resolveNode_resolved :
    ∀ (node : Node) (progress : Progress), Resolved [node] →
      resolveNode one node progress = .ok ([node], progress)
  | .component .., progress, resolved => by cases resolved _ List.mem_cons_self
  | .element tag attributes children site, progress, resolved => by
      rw [resolveNode, resolveNodes_resolved children progress
        (resolved.childLists children (List.mem_singleton_self _))]
      rfl
  | .conditional id condition consequent alternate site, progress, resolved => by
      have inside := resolved.childLists
      rw [resolveNode, resolveNodes_resolved consequent progress (inside _ List.mem_cons_self)]
      change (resolveNodes one alternate progress).bind _ = _
      rw [resolveNodes_resolved alternate progress
        (inside _ (List.mem_cons_of_mem _ List.mem_cons_self))]
      rfl
  | .optional id condition branch site, progress, resolved
  | .loop id condition _ branch site, progress, resolved => by
      rw [resolveNode, resolveNodes_resolved branch progress
        (resolved.childLists branch (List.mem_singleton_self _))]
      rfl
  | .text .., progress, resolved | .expression _, progress, resolved
  | .doctype .., progress, resolved => by
      rw [resolveNode]
      rfl

/-- Nodes without usages stay as they are. -/
theorem resolveNodes_resolved :
    ∀ (nodes : List Node) (progress : Progress), Resolved nodes →
      resolveNodes one nodes progress = .ok (nodes, progress)
  | [], progress, resolved => rfl
  | node :: rest, progress, resolved => by
      rw [Resolved, everywhere_head_tail] at resolved
      rw [resolveNodes, resolveNode_resolved node progress resolved.1]
      change (resolveNodes one rest progress).bind _ = _
      rw [resolveNodes_resolved rest progress resolved.2]
      rfl

end

/-- A node without usages that is reached stays. -/
theorem resolveNodes_reach {nodes result : List Node} {node : Node} {progress progress' : Progress}
    (resolved : Resolved [node]) (member : node ∈ reachOfList anyTag nodes)
    (ok : resolveNodes one nodes progress = .ok (result, progress')) :
    node ∈ reachOfList anyTag result := by
  induction nodes using reach_induction anyTag generalizing progress progress' result with
  | nil => cases member
  | cons first rest into behind =>
      simp only [resolveNodes, bind_eq_ok] at ok
      obtain ⟨⟨made, middle⟩, first_ok, ⟨others, last⟩, rest_ok, ok⟩ := ok
      cases ok
      rw [reachOfList, reach_eq, List.mem_append, List.mem_cons] at member
      rw [reachOfList_append]
      rcases member with (rfl | deeper) | later
      · rw [resolveNode_resolved node progress resolved] at first_ok
        cases first_ok
        exact List.mem_append_left _ (mem_reachOfList_of_mem (List.mem_singleton_self _))
      · have ordinary : first.isUsage = false := by
          cases first with
          | component => cases deeper
          | _ => rfl
        obtain ⟨node', rfl, -, inner_ok⟩ := resolveNode_insides ordinary first_ok
        refine List.mem_append_left _ ?_
        rw [reachOfList, reach_eq]
        exact List.mem_append_left _ (List.mem_cons_of_mem _ (into deeper inner_ok))
      · exact List.mem_append_right _ (behind later rest_ok)

end

/-! ## Templates that are filled -/

/-- Nodes fill a template if what is reached in it is found there in the same order, except that
content stands in place of each element for the slot. -/
inductive Fills (content : List Node) (slot : Option String) : List Node → List Node → Prop where
  | nil : Fills content slot [] []
  /-- Nodes that nothing is said about. -/
  | extra {nodes filled : List Node} (made : List Node) :
      Fills content slot nodes filled → Fills content slot nodes (made ++ filled)
  /-- The content in its place. -/
  | slot {attributes : List Attribute} {children rest made filled : List Node} {site : Site} :
      Slots.selected attributes = slot → Alike (Traced false) content made →
      Fills content slot rest filled →
      Fills content slot (.element "slot" attributes children site :: rest) (made ++ filled)
  /-- A node in which nothing is reached. -/
  | skip {node : Node} {rest filled : List Node} : node.isUsage = false →
      insides exceptSlot node = [] →
      (∀ attributes children site, node = .element "slot" attributes children site →
        Slots.selected attributes ≠ slot) →
      Fills content slot rest filled → Fills content slot (node :: rest) filled
  | element {tag : String} {attributes attributes' : List Attribute} {site site' : Site}
      {children children' rest filled : List Node} : tag ≠ "slot" →
      Attribute.Alike Anything attributes attributes' → Fills content slot children children' →
      Fills content slot rest filled →
      Fills content slot (.element tag attributes children site :: rest)
        (.element tag attributes' children' site' :: filled)
  | component {name : String} {attributes attributes' : List Attribute} {site site' : Site}
      {children children' rest filled : List Node} :
      Attribute.Alike Anything attributes attributes' → Fills content slot children children' →
      Fills content slot rest filled →
      Fills content slot (.component name attributes children site :: rest)
        (.component name attributes' children' site' :: filled)
  | fragment {node node' : Node} {rest filled : List Node} :
      node.isFragment = true → node'.isFragment = true →
      Fills content slot (insides exceptSlot node) (insides anyTag node') →
      Fills content slot rest filled → Fills content slot (node :: rest) (node' :: filled)

namespace Fills

variable {content nodes filled : List Node} {slot : Option String}

theorem append {nodes' filled' : List Node} (first : Fills content slot nodes filled)
    (second : Fills content slot nodes' filled') :
    Fills content slot (nodes ++ nodes') (filled ++ filled') := by
  induction first with
  | nil => exact second
  | extra made _ induction =>
      rw [List.append_assoc]
      exact .extra made induction
  | slot selected alike _ induction =>
      rw [List.cons_append, List.append_assoc]
      exact .slot selected alike induction
  | skip ordinary empty other _ induction => exact .skip ordinary empty other induction
  | element ordinary attributes children _ _ induction =>
      exact .element ordinary attributes children induction
  | component attributes children _ _ induction => exact .component attributes children induction
  | fragment own own' into _ _ induction => exact .fragment own own' into induction

/-- Nodes that are alike fill the same template. -/
theorem alike {given : List Node} (fills : Fills content slot nodes filled)
    (alike : Alike (Traced false) filled given) : Fills content slot nodes given := by
  have anything : ∀ e e' e'' : Expression, Anything e e' → Anything e' e'' → Anything e e'' :=
    fun _ _ _ _ _ => trivial
  have traced : ∀ e e' : Expression, Traced false e e' → Anything e e' := fun _ _ _ => trivial
  induction fills generalizing given with
  | nil =>
      cases alike
      exact .nil
  | extra made _ induction =>
      obtain ⟨made', given', rfl, -, behind⟩ := alike.of_append
      exact .extra made' (induction behind)
  | slot selected copied _ induction =>
      obtain ⟨made', given', rfl, made, behind⟩ := alike.of_append
      exact .slot selected (copied.trans Traced.trans made) (induction behind)
  | skip ordinary empty other _ induction => exact .skip ordinary empty other (induction alike)
  | element ordinary attributes _ _ into behind =>
      cases alike with
      | element attributes' children' rest' =>
          exact .element ordinary (attributes.trans anything (attributes'.weaken traced))
            (into children') (behind rest')
  | component attributes _ _ into behind =>
      cases alike with
      | component attributes' children' rest' =>
          exact .component (attributes.trans anything (attributes'.weaken traced))
            (into children') (behind rest')
  | fragment own own' _ _ into behind =>
      cases alike with
      | conditional _ first second rest' =>
          exact .fragment own rfl (into (first.append second)) (behind rest')
      | optional _ branch rest' | loop _ branch rest' =>
          exact .fragment own rfl (into branch) (behind rest')
      | element | component | text | expression | doctype => cases own'

/-- What is directly inside the nodes of a template is filled by what is directly inside. -/
theorem insidesOfList (fills : Fills content slot nodes filled) :
    Fills content slot (insidesOfList exceptSlot nodes) (insidesOfList anyTag filled) := by
  induction fills with
  | nil => exact .nil
  | extra made _ induction =>
      rw [insidesOfList_append]
      exact .extra _ induction
  | slot _ _ _ induction =>
      rw [insidesOfList_cons, insidesOfList_append]
      exact .extra _ induction
  | skip _ empty _ _ induction =>
      rw [insidesOfList_cons, empty]
      exact induction
  | @element tag _ _ _ _ _ _ _ _ ordinary attributes children _ _ induction =>
      have entered : exceptSlot tag = true := by simpa [exceptSlot] using ordinary
      rw [insidesOfList_cons, insidesOfList_cons, insides, if_pos entered]
      exact children.append induction
  | component _ _ _ _ induction => exact induction
  | fragment _ _ into _ _ induction =>
      rw [insidesOfList_cons, insidesOfList_cons]
      exact into.append induction

/-- What is reached in a template comes first in some nodes, which a part of what fills the template
fills. -/
theorem reached_first (fills : Fills content slot nodes filled) {node : Node}
    (reached : node ∈ reachOfList exceptSlot nodes) :
    ∃ rest filled', Fills content slot (node :: rest) filled' ∧
      reachOfList anyTag filled' ⊆ reachOfList anyTag filled := by
  -- a node is the first one, or inside it, or behind it
  have step {first : Node} {rest filled into behind : List Node}
      (whole : Fills content slot (first :: rest) filled)
      (deeper : node ∈ reachOfList exceptSlot (insides exceptSlot first) →
        ∃ rest filled', Fills content slot (node :: rest) filled' ∧
          reachOfList anyTag filled' ⊆ reachOfList anyTag into)
      (later : node ∈ reachOfList exceptSlot rest →
        ∃ rest filled', Fills content slot (node :: rest) filled' ∧
          reachOfList anyTag filled' ⊆ reachOfList anyTag behind)
      (inside : reachOfList anyTag into ⊆ reachOfList anyTag filled)
      (after : reachOfList anyTag behind ⊆ reachOfList anyTag filled)
      (reached : node ∈ reachOfList exceptSlot (first :: rest)) :
      ∃ rest filled', Fills content slot (node :: rest) filled' ∧
        reachOfList anyTag filled' ⊆ reachOfList anyTag filled := by
    rw [reachOfList, reach_eq, List.mem_append, List.mem_cons] at reached
    rcases reached with (rfl | within) | beyond
    · exact ⟨rest, filled, whole, List.Subset.refl _⟩
    · obtain ⟨rest', filled', fills, found⟩ := deeper within
      exact ⟨rest', filled', fills, List.Subset.trans found inside⟩
    · obtain ⟨rest', filled', fills, found⟩ := later beyond
      exact ⟨rest', filled', fills, List.Subset.trans found after⟩
  have front (made filled : List Node) :
      reachOfList anyTag filled ⊆ reachOfList anyTag (made ++ filled) := by
    rw [reachOfList_append]
    exact List.subset_append_right _ _
  have within (first : Node) (filled : List Node) :
      reachOfList anyTag (insides anyTag first) ⊆ reachOfList anyTag (first :: filled) := by
    rw [reachOfList, reach_eq]
    exact List.subset_append_of_subset_left _ (List.subset_cons_self _ _)
  have nothing : node ∈ reachOfList exceptSlot [] → ∃ rest filled',
      Fills content slot (node :: rest) filled' ∧
        reachOfList anyTag filled' ⊆ reachOfList anyTag [] := nofun
  induction fills with
  | nil => cases reached
  | extra made _ induction =>
      obtain ⟨rest', filled', fills, found⟩ := induction reached
      exact ⟨rest', filled', fills, List.Subset.trans found (front made _)⟩
  | slot selected alike rest behind =>
      exact step (.slot selected alike rest) nothing behind (List.nil_subset _) (front _ _) reached
  | skip ordinary empty other rest behind =>
      have inside (filled : List Node) : reachOfList anyTag [] ⊆ reachOfList anyTag filled :=
        List.nil_subset _
      refine step (.skip ordinary empty other rest) (fun deeper => ?_) behind (inside _)
        (List.Subset.refl _) reached
      rw [empty] at deeper
      exact nothing deeper
  | @element tag _ _ _ _ _ _ _ _ ordinary attributes children rest into behind =>
      have entered : exceptSlot tag = true := by simpa [exceptSlot] using ordinary
      refine step (.element ordinary attributes children rest) ?_ behind (within _ _) (front [_] _)
        reached
      rw [insides, if_pos entered]
      exact into
  | component attributes children rest _ behind =>
      exact step (.component attributes children rest) nothing behind (List.nil_subset _)
        (front [_] _) reached
  | fragment own own' children rest into behind =>
      exact step (.fragment own own' children rest) into behind (within _ _) (front [_] _) reached

/-- Where a slot element is reached in a template, all of the content is reached. -/
theorem reach_content (fills : Fills content slot nodes filled) {attributes : List Attribute}
    {children : List Node} {site : Site}
    (reached : .element "slot" attributes children site ∈ reachOfList exceptSlot nodes)
    (selected : Slots.selected attributes = slot) {node : Node}
    (member : node ∈ reachOfList anyTag content) :
    ∃ node' ∈ reachOfList anyTag filled, Alike (Traced false) [node] [node'] := by
  obtain ⟨rest, filled', first, found⟩ := fills.reached_first reached
  suffices ∃ node' ∈ reachOfList anyTag filled', Alike (Traced false) [node] [node'] by
    obtain ⟨node', shown, same⟩ := this
    exact ⟨node', found shown, same⟩
  clear found
  generalize front : Node.element "slot" attributes children site :: rest = whole at first
  induction first with
  | extra made _ induction =>
      obtain ⟨node', shown, same⟩ := induction front
      rw [reachOfList_append]
      exact ⟨node', List.mem_append_right _ shown, same⟩
  | slot _ alike _ _ =>
      obtain ⟨node', shown, same⟩ := alike.reach member
      rw [reachOfList_append]
      exact ⟨node', List.mem_append_left _ shown, same⟩
  | skip _ _ other _ _ =>
      cases front
      exact (other _ _ _ rfl selected).elim
  | element ordinary _ _ _ _ _ =>
      cases front
      exact (ordinary rfl).elim
  | fragment own _ _ _ _ _ =>
      cases front
      cases own
  | nil | component _ _ _ _ _ => cases front

/-- A usage that is reached in a template is reached where the template is filled, with what fills
its children. -/
theorem reach_usage (fills : Fills content slot nodes filled) {usage : Usage}
    (reached : usage.node ∈ reachOfList exceptSlot nodes) :
    ∃ usage' : Usage, usage'.node ∈ reachOfList anyTag filled ∧ usage'.name = usage.name ∧
      Attribute.Alike Anything usage.attributes usage'.attributes ∧
      Fills content slot usage.children usage'.children := by
  obtain ⟨rest, filled', first, found⟩ := fills.reached_first reached
  suffices ∃ usage' : Usage, usage'.node ∈ reachOfList anyTag filled' ∧ usage'.name = usage.name ∧
      Attribute.Alike Anything usage.attributes usage'.attributes ∧
      Fills content slot usage.children usage'.children by
    obtain ⟨usage', shown, same⟩ := this
    exact ⟨usage', found shown, same⟩
  clear found
  generalize front : usage.node :: rest = whole at first
  induction first with
  | extra made _ induction =>
      obtain ⟨usage', shown, same⟩ := induction front
      rw [reachOfList_append]
      exact ⟨usage', List.mem_append_right _ shown, same⟩
  | @component name _ attributes' _ site' _ children' _ _ attributes children _ _ _ =>
      cases front
      exact ⟨⟨usage.name, attributes', children', site'⟩,
        mem_reachOfList_of_mem List.mem_cons_self, rfl, attributes, children⟩
  | skip own _ _ _ _ | fragment own _ _ _ _ _ =>
      cases front
      cases own
  | nil | slot _ _ _ _ | element _ _ _ _ _ _ => cases front

/-- What a usage supplies for a slot of its component is filled by what it supplies afterwards. -/
theorem supplied (fills : Fills content slot nodes filled)
    (resolved : Resolved content) (parent name : String) :
    Fills content slot (Slots.supplied parent name nodes)
      (Slots.supplied parent name filled) := by
  -- only usages are markers
  have share_of {node : Node} (ordinary : node.isUsage = false) :
      Slots.share parent name node = if name = Definition.defaultSlot then [node] else [] := by
    cases node with
    | component => cases ordinary
    | _ => rfl
  have supplied_of {made : List Node} (ordinary : ∀ node ∈ made, node.isUsage = false) :
      Slots.supplied parent name made = if name = Definition.defaultSlot then made else [] := by
    induction made with
    | nil => simp [Slots.supplied]
    | cons node rest induction =>
        rw [List.forall_mem_cons] at ordinary
        rw [Slots.supplied] at induction ⊢
        rw [List.flatMap_cons, share_of ordinary.1, induction ordinary.2]
        split <;> rfl
  have apart (left right : List Node) : Slots.supplied parent name (left ++ right) =
      Slots.supplied parent name left ++ Slots.supplied parent name right := List.flatMap_append
  have front (node : Node) (rest : List Node) : Slots.supplied parent name (node :: rest) =
      Slots.share parent name node ++ Slots.supplied parent name rest := List.flatMap_cons
  induction fills with
  | nil => exact .nil
  | extra made _ induction =>
      rw [apart]
      exact .extra _ induction
  | slot selected alike _ induction =>
      rw [front, apart, share_of rfl, supplied_of (alike.resolved resolved).ordinary]
      split
      · exact .slot selected alike induction
      · exact induction
  | skip ordinary empty other _ induction =>
      rw [front, share_of ordinary]
      split
      · exact .skip ordinary empty other induction
      · exact induction
  | element ordinary attributes children _ _ induction =>
      rw [front, front, share_of rfl, share_of rfl]
      split
      · exact .element ordinary attributes children induction
      · exact induction
  | @component marker _ _ _ _ _ _ _ _ attributes children _ _ induction =>
      rw [front, front]
      refine append ?_ induction
      simp only [Slots.share, Slots.marker?]
      cases Component.markedSlot? parent marker with
      | none =>
          simp only [Option.map_none]
          split
          · exact .component attributes children .nil
          · exact .nil
      | some marked =>
          simp only [Option.map_some]
          split
          · exact children
          · exact .nil
  | fragment own own' children _ _ induction =>
      have ordinary {node : Node} (own : node.isFragment = true) : node.isUsage = false := by
        cases node with
        | component => cases own
        | _ => rfl
      rw [front, front, share_of (ordinary own), share_of (ordinary own')]
      split
      · exact .fragment own own' children induction
      · exact induction

end Fills

/-! ### Placing content fills a template -/

theorem placeNodes_cons (usage : Option Scope) (p : Placement) (node : Node) (rest : List Node) :
    (placeNodes usage p (node :: rest)).1 =
      (placeNode usage p node).1 ++ (placeNodes usage (placeNode usage p node).2 rest).1 := by
  rw [placeNodes]

/-- A template that has its content placed is filled, and so is any that it is a copy of. -/
theorem placeNodes_filled {usage : Option Scope} {slot : Option String}
    {template copied content : List Node} (alike : Alike Anything template copied)
    (shown : content ≠ []) {p : Placement}
    (found : ∃ placed, p.slots.content? slot = some ⟨content, placed⟩) :
    Fills content slot template (placeNodes usage p copied).1 := by
  -- placing what comes first leaves the content for what is behind
  have later {p : Placement} (nodes : List Node)
      (found : ∃ placed, p.slots.content? slot = some ⟨content, placed⟩) :
      ∃ placed, (placeNodes usage p nodes).2.slots.content? slot = some ⟨content, placed⟩ := by
    obtain ⟨placed, found⟩ := found
    obtain ⟨⟨nodes', placed'⟩, found', rfl⟩ : ∃ content',
        (placeNodes usage p nodes).2.slots.content? slot = some content' ∧
          content'.nodes = content := placeNodes_content nodes found
    exact ⟨placed', found'⟩
  have next {p : Placement} (node : Node)
      (found : ∃ placed, p.slots.content? slot = some ⟨content, placed⟩) :
      ∃ placed, (placeNode usage p node).2.slots.content? slot = some ⟨content, placed⟩ := by
    obtain ⟨placed, found⟩ := found
    obtain ⟨⟨nodes', placed'⟩, found', rfl⟩ : ∃ content',
        (placeNode usage p node).2.slots.content? slot = some content' ∧
          content'.nodes = content := placeNode_content node found
    exact ⟨placed', found'⟩
  have front {node : Node} {rest own others : List Node} (first : Fills content slot [node] own)
      (behind : Fills content slot rest others) :
      Fills content slot (node :: rest) (own ++ others) := first.append behind
  induction alike generalizing p with
  | nil => exact .nil
  | @element tag attributes _ _ site' _ _ _ _ same _ _ into behind =>
      rw [placeNodes_cons]
      refine front ?_ (behind (next _ found))
      rw [placeNode]
      split
      · rename_i placeholder
        subst placeholder
        rw [Slots.selected, ← same.fixed?, ← Slots.selected]
        by_cases own : Slots.selected attributes = slot
        · obtain ⟨placed, found⟩ := found
          dsimp only
          rw [own, found]
          dsimp only
          rw [if_neg (by simpa using shown), ← List.append_nil (Placement.insert _ _ _ _ _).1]
          exact .slot own (insert_alike usage site'.scope p slot ⟨content, placed⟩) .nil
        · rw [← List.append_nil (Prod.fst _)]
          refine .extra _ (.skip rfl rfl (fun _ _ _ this => ?_) .nil)
          cases this
          exact own
      · rename_i ordinary
        exact .element ordinary same (into found) .nil
  | component same _ _ into behind =>
      rw [placeNodes_cons, placeNode]
      exact front (.component same (into found) .nil) (behind (next (.component ..) found))
  | conditional _ _ _ _ left right behind =>
      rw [placeNodes_cons]
      refine front ?_ (behind (next _ found))
      rw [placeNode]
      exact .fragment rfl rfl ((left found).append (right (later _ found))) .nil
  | optional _ _ _ into behind | loop _ _ _ into behind =>
      rw [placeNodes_cons]
      refine front ?_ (behind (next _ found))
      rw [placeNode]
      exact .fragment rfl rfl (into found) .nil
  | text _ behind | expression _ _ behind | doctype _ behind =>
      rw [placeNodes_cons]
      refine .skip rfl rfl (fun _ _ _ same => ?_) (.extra _ (behind (next _ found)))
      cases same

end Component
end ReactiveTemplate
