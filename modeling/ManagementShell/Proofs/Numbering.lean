import ManagementShell.Proofs.Place
import Mathlib.Logic.Relation

/-
This file shows that the numbers of the nodes fit their links, as they do when nodes are added one by
one: parents come before their children, each node is the child of one other, and the nodes inside a
node follow it without a gap. So the way up from a node ends, and it meets the nodes that the node
lies in.
-/

namespace ManagementShell

/-- The inner node is noted among the children of the outer one. -/
def Links (nodes : List Node) (outer inner : Nat) : Prop :=
  ∃ node ∈ nodes[outer]?, inner ∈ node.children

/-- Child links lead from the outer node to the inner one, or the nodes are the same. -/
def Reaches (nodes : List Node) : Nat → Nat → Prop := Relation.ReflTransGen (Links nodes)

/-- The way up from a node meets the other one, or it ends at a node without a parent. No answer
stands for a way that does not end. -/
inductive Climbs (nodes : List Node) (ancestor : Nat) : Nat → Bool → Prop where
  | met : Climbs nodes ancestor ancestor true
  | ended {number : Nat} (other : number ≠ ancestor)
      (isTop : (nodes[number]?).bind Node.parent = none) : Climbs nodes ancestor number false
  | up {number parent : Nat} {answer : Bool} (other : number ≠ ancestor)
      (isParent : (nodes[number]?).bind Node.parent = some parent)
      (later : Climbs nodes ancestor parent answer) : Climbs nodes ancestor number answer

/-- The numbers of nodes are their places in a list, and the links between them are those of a tree
that is listed in document order. -/
structure IsArena (nodes : List Node) : Prop where
  root : ∃ node, nodes[0]? = some node ∧ node.parent = none
  parent : ∀ number node, nodes[number]? = some node → number ≠ 0 →
    ∃ parent < number, node.parent = some parent ∧ Links nodes parent number
  once : ∀ number, (nodes.flatMap Node.children).count number =
    if 0 < number ∧ number < nodes.length then 1 else 0
  increasing : ∀ node ∈ nodes, node.children.Pairwise (· < ·)
  contiguous : ∀ outer < nodes.length, ∃ stop, outer < stop ∧ stop ≤ nodes.length ∧
    ∀ inner, Reaches nodes outer inner ↔ outer ≤ inner ∧ inner < stop
  text : ∀ node ∈ nodes, node.text = none ↔ node.children ≠ []

namespace Element

theorem size_pos (element : Element) : 0 < element.size := by
  obtain ⟨tag, text, children⟩ := element
  rw [size]
  exact Nat.succ_pos _

theorem le_of_mem_numbersFrom {start number : Nat} {elements : List Element}
    (member : number ∈ numbersFrom start elements) : start ≤ number := by
  induction elements generalizing start with
  | nil => cases member
  | cons first rest inductionHypothesis =>
      rw [numbersFrom, List.mem_cons] at member
      rcases member with rfl | later
      · exact Nat.le_refl _
      · have := inductionHypothesis later
        omega

theorem numbersFrom_increasing (start : Nat) (elements : List Element) :
    (numbersFrom start elements).Pairwise (· < ·) := by
  induction elements generalizing start with
  | nil => exact .nil
  | cons first rest inductionHypothesis =>
      refine .cons (fun number later => ?_) (inductionHypothesis _)
      have := le_of_mem_numbersFrom later
      have := first.size_pos
      omega

mutual

theorem nodesFrom_contents (parent : Option Nat) (start : Nat) (element : Element) :
    ∀ node ∈ nodesFrom parent start element, ∃ inner : Element, ∃ first : Nat,
      node.text = inner.text? ∧ node.children = numbersFrom first inner.children := by
  obtain ⟨tag, text, children⟩ := element
  rw [nodesFrom]
  simp only [List.mem_cons, forall_eq_or_imp]
  exact ⟨⟨.mk tag text children, start + 1, rfl, rfl⟩, nodesOfAll_contents _ _ children⟩

theorem nodesOfAll_contents (parent : Option Nat) (start : Nat) (elements : List Element) :
    ∀ node ∈ nodesOfAll parent start elements, ∃ inner : Element, ∃ first : Nat,
      node.text = inner.text? ∧ node.children = numbersFrom first inner.children := by
  cases elements with
  | nil => exact List.forall_mem_nil _
  | cons first rest =>
      rw [nodesOfAll, List.forall_mem_append]
      exact ⟨nodesFrom_contents _ _ first, nodesOfAll_contents _ _ rest⟩

end

mutual

/-- The parents of nodes of an element are in it as well, except for that of the first node. -/
theorem nodesFrom_parent (parent : Option Nat) (start : Nat) (element : Element) :
    ∀ entry ∈ (nodesFrom parent start element).zipIdx start,
      (entry.2 = start ∧ entry.1.parent = parent) ∨
        ∃ outer ∈ (nodesFrom parent start element).zipIdx start,
          entry.1.parent = some outer.2 ∧ entry.2 ∈ outer.1.children := by
  obtain ⟨tag, text, children⟩ := element
  rw [nodesFrom, List.zipIdx_cons]
  rintro entry (_ | ⟨_, inside⟩)
  · exact .inl ⟨rfl, rfl⟩
  · right
    rcases nodesOfAll_parent (some start) (start + 1) children entry inside with
      ⟨isChild, isParent⟩ | ⟨outer, isOuter, links⟩
    · exact ⟨_, List.mem_cons_self .., isParent, isChild⟩
    · exact ⟨outer, List.mem_cons_of_mem _ isOuter, links⟩

theorem nodesOfAll_parent (parent : Option Nat) (start : Nat) (elements : List Element) :
    ∀ entry ∈ (nodesOfAll parent start elements).zipIdx start,
      (entry.2 ∈ numbersFrom start elements ∧ entry.1.parent = parent) ∨
        ∃ outer ∈ (nodesOfAll parent start elements).zipIdx start,
          entry.1.parent = some outer.2 ∧ entry.2 ∈ outer.1.children := by
  cases elements with
  | nil => exact List.forall_mem_nil _
  | cons first rest =>
      rw [nodesOfAll, List.zipIdx_append, length_nodesFrom, numbersFrom]
      intro entry member
      rcases List.mem_append.mp member with inFirst | inRest
      · rcases nodesFrom_parent parent start first entry inFirst with
          ⟨isStart, isParent⟩ | ⟨outer, isOuter, links⟩
        · exact .inl ⟨isStart ▸ List.mem_cons_self .., isParent⟩
        · exact .inr ⟨outer, List.mem_append_left _ isOuter, links⟩
      · rcases nodesOfAll_parent parent _ rest entry inRest with
          ⟨isNumber, isParent⟩ | ⟨outer, isOuter, links⟩
        · exact .inl ⟨List.mem_cons_of_mem _ isNumber, isParent⟩
        · exact .inr ⟨outer, List.mem_append_right _ isOuter, links⟩

end

/-- The numbers of elements that follow each other are those of their first nodes. -/
theorem exists_of_mem_numbersFrom (parent : Option Nat) {start number : Nat}
    {elements : List Element} (member : number ∈ numbersFrom start elements) :
    ∃ node, (node, number) ∈ (nodesOfAll parent start elements).zipIdx start ∧
      node.parent = parent := by
  induction elements generalizing start with
  | nil => cases member
  | cons first rest inductionHypothesis =>
      rw [nodesOfAll, List.zipIdx_append, length_nodesFrom]
      rw [numbersFrom, List.mem_cons] at member
      rcases member with rfl | later
      · obtain ⟨tag, text, children⟩ := first
        exact ⟨_, List.mem_append_left _ (List.mem_cons_self ..), rfl⟩
      · obtain ⟨node, isNode, isParent⟩ := inductionHypothesis later
        exact ⟨node, List.mem_append_right _ isNode, isParent⟩

mutual

/-- The children of a node of an element come after it and are in the element as well. -/
theorem nodesFrom_children (parent : Option Nat) (start : Nat) (element : Element) :
    ∀ outer ∈ (nodesFrom parent start element).zipIdx start, ∀ number ∈ outer.1.children,
      outer.2 < number ∧ ∃ node, (node, number) ∈ (nodesFrom parent start element).zipIdx start ∧
        node.parent = some outer.2 := by
  obtain ⟨tag, text, children⟩ := element
  rw [nodesFrom, List.zipIdx_cons]
  rintro outer (_ | ⟨_, inside⟩) number isChild
  · obtain ⟨node, isNode, isParent⟩ := exists_of_mem_numbersFrom (some start) isChild
    exact ⟨le_of_mem_numbersFrom isChild, node, List.mem_cons_of_mem _ isNode, isParent⟩
  · obtain ⟨after, node, isNode, isParent⟩ :=
      nodesOfAll_children (some start) (start + 1) children outer inside number isChild
    exact ⟨after, node, List.mem_cons_of_mem _ isNode, isParent⟩

theorem nodesOfAll_children (parent : Option Nat) (start : Nat) (elements : List Element) :
    ∀ outer ∈ (nodesOfAll parent start elements).zipIdx start, ∀ number ∈ outer.1.children,
      outer.2 < number ∧ ∃ node, (node, number) ∈ (nodesOfAll parent start elements).zipIdx start ∧
        node.parent = some outer.2 := by
  cases elements with
  | nil => exact List.forall_mem_nil _
  | cons first rest =>
      rw [nodesOfAll, List.zipIdx_append, length_nodesFrom]
      intro outer member number isChild
      rcases List.mem_append.mp member with inFirst | inRest
      · obtain ⟨after, node, isNode, isParent⟩ :=
          nodesFrom_children parent start first outer inFirst number isChild
        exact ⟨after, node, List.mem_append_left _ isNode, isParent⟩
      · obtain ⟨after, node, isNode, isParent⟩ :=
          nodesOfAll_children parent _ rest outer inRest number isChild
        exact ⟨after, node, List.mem_append_right _ isNode, isParent⟩

end

mutual

/-- The children of the nodes of an element are its nodes except for the first one. -/
theorem nodesFrom_children_perm (parent : Option Nat) (start : Nat) (element : Element) :
    ((nodesFrom parent start element).flatMap Node.children).Perm
      (List.range' (start + 1) (element.size - 1)) := by
  obtain ⟨tag, text, children⟩ := element
  rw [nodesFrom, List.flatMap_cons, size, Nat.add_sub_cancel]
  exact nodesOfAll_children_perm _ _ children

theorem nodesOfAll_children_perm (parent : Option Nat) (start : Nat) (elements : List Element) :
    (numbersFrom start elements ++ (nodesOfAll parent start elements).flatMap Node.children).Perm
      (List.range' start (sizeAll elements)) := by
  cases elements with
  | nil => exact .nil
  | cons first rest =>
      have insideFirst := nodesFrom_children_perm parent start first
      have insideRest := nodesOfAll_children_perm parent (start + first.size) rest
      have isFirst : start :: List.range' (start + 1) (first.size - 1) =
          List.range' start first.size := by
        rw [← List.range'_succ, Nat.sub_add_cancel first.size_pos]
      rw [numbersFrom, nodesOfAll, List.flatMap_append, List.cons_append, sizeAll,
        ← List.range'_append_1, ← isFirst, List.cons_append]
      refine List.Perm.cons _ ?_
      -- The numbers of the rest and the children inside the first element change places.
      have swapped := List.perm_append_comm_assoc (numbersFrom (start + first.size) rest)
        ((nodesFrom parent start first).flatMap Node.children)
        ((nodesOfAll parent (start + first.size) rest).flatMap Node.children)
      exact swapped.trans (insideFirst.append insideRest)

end

mutual

/-- The nodes of an inner element are next to each other, at the place that its number says. -/
theorem placeFrom_block (parent : Option Nat) (start number : Nat) (element : Element) :
    ∀ place ∈ placeFrom parent start number element, place.number = number ∧
      ∃ before after, number = start + before.length ∧ nodesFrom parent start element =
        before ++ nodesFrom place.parent number place.element ++ after := by
  obtain ⟨tag, text, children⟩ := element
  rw [placeFrom]
  split
  · rename_i isStart
    rintro _ ⟨⟩
    subst isStart
    exact ⟨rfl, [], [], rfl, by simp⟩
  · intro place isPlace
    obtain ⟨isNumber, before, after, isLength, isBlock⟩ :=
      placeAmong_block (some start) (start + 1) number children place isPlace
    rw [nodesFrom, isBlock]
    refine ⟨isNumber, ⟨tag, (Element.mk tag text children).text?, numbersFrom (start + 1) children,
      parent⟩ :: before, after, ?_, by simp⟩
    rw [List.length_cons]
    omega

theorem placeAmong_block (parent : Option Nat) (start number : Nat) (elements : List Element) :
    ∀ place ∈ placeAmong parent start number elements, place.number = number ∧
      ∃ before after, number = start + before.length ∧ nodesOfAll parent start elements =
        before ++ nodesFrom place.parent number place.element ++ after := by
  cases elements with
  | nil => exact fun _ none => by cases none
  | cons first rest =>
      intro place isPlace
      rw [placeAmong] at isPlace
      rw [nodesOfAll]
      split at isPlace
      · obtain ⟨isNumber, before, after, isLength, isBlock⟩ :=
          placeFrom_block parent start number first place isPlace
        exact ⟨isNumber, before, _, isLength, by rw [isBlock, List.append_assoc]⟩
      · obtain ⟨isNumber, before, after, isLength, isBlock⟩ :=
          placeAmong_block parent _ number rest place isPlace
        refine ⟨isNumber, nodesFrom parent start first ++ before, after, ?_, by simp [isBlock]⟩
        rw [List.length_append, length_nodesFrom]
        omega

end

section

variable {root : Element} {outer : Nat} {place : Place}

theorem place?_number (isPlace : root.place? outer = some place) : place.number = outer :=
  (placeFrom_block none 0 outer root place isPlace).1

theorem place?_fits (isPlace : root.place? outer = some place) :
    outer + place.element.size ≤ root.nodes.length := by
  have fits := (place?_within isPlace).elements
  rw [place?_number isPlace] at fits
  exact fits

/-- The numbered nodes of an inner element are the nodes with the numbers from its own on. -/
theorem mem_block (isPlace : root.place? outer = some place) (node : Node) (number : Nat) :
    (node, number) ∈ (nodesFrom place.parent outer place.element).zipIdx outer ↔
      root.nodes[number]? = some node ∧ outer ≤ number ∧ number < outer + place.element.size := by
  obtain ⟨_, before, after, isLength, isBlock⟩ := placeFrom_block none 0 outer root place isPlace
  rw [Nat.zero_add] at isLength
  rw [List.mem_zipIdx_iff_le_and_getElem?_sub, nodes, isBlock, ← length_nodesFrom place.parent outer]
  constructor
  · rintro ⟨atLeast, isNode⟩
    have below := (List.getElem?_eq_some_iff.mp isNode).1
    refine ⟨?_, atLeast, by omega⟩
    rw [List.append_assoc, List.getElem?_append_right (isLength ▸ atLeast), ← isLength,
      List.getElem?_append_left below]
    exact isNode
  · rintro ⟨isNode, atLeast, below⟩
    rw [List.append_assoc, List.getElem?_append_right (isLength ▸ atLeast), ← isLength,
      List.getElem?_append_left (by omega)] at isNode
    exact ⟨atLeast, isNode⟩

/-- Child links lead to the nodes with the numbers from the own one on, and to no others. -/
theorem reaches_iff (isPlace : root.place? outer = some place) (inner : Nat) :
    Reaches root.nodes outer inner ↔ outer ≤ inner ∧ inner < outer + place.element.size := by
  constructor
  · intro reaches
    induction reaches with
    | refl =>
        have := place.element.size_pos
        omega
    | tail _ isChild inside =>
        obtain ⟨node, isNode, isMember⟩ := isChild
        obtain ⟨_, child, isInner, _⟩ := nodesFrom_children _ _ _ (node, _)
          ((mem_block isPlace node _).mpr ⟨isNode, inside⟩) _ isMember
        exact ((mem_block isPlace child _).mp isInner).2
  · induction inner using Nat.strongRecOn with
    | ind inner inductionHypothesis =>
        intro inside
        have fits := place?_fits isPlace
        have isNode := List.getElem?_eq_getElem (l := root.nodes) (i := inner) (by omega)
        -- The way down from the outer node comes over the parent, which has a smaller number.
        rcases nodesFrom_parent _ _ _ _ ((mem_block isPlace _ inner).mpr ⟨isNode, inside⟩) with
          ⟨isOuter, _⟩ | ⟨⟨node, middle⟩, isMiddle, _, isMember⟩
        · rw [show inner = outer from isOuter]
          exact .refl
        · have before := (nodesFrom_children _ _ _ _ isMiddle _ isMember).1
          obtain ⟨isParent, between⟩ := (mem_block isPlace node middle).mp isMiddle
          exact (inductionHypothesis middle before between).tail ⟨node, isParent, isMember⟩

end

mutual

/-- An element is added after the nodes that there are. It has no children at first; each of them
is noted when it has been added with all that it holds. -/
def addTo (nodes : List Node) (parent : Option Nat) : Element → List Node
  | .mk tag text children =>
      addAllTo (nodes ++ [⟨tag, (Element.mk tag text children).text?, [], parent⟩]) nodes.length
        children

def addAllTo (nodes : List Node) (parent : Nat) : List Element → List Node
  | [] => nodes
  | first :: rest =>
      addAllTo ((addTo nodes (some parent) first).modify parent fun node =>
        { node with children := node.children ++ [nodes.length] }) parent rest

end

theorem modify_append_cons (before after : List Node) (node : Node) (change : Node → Node) :
    (before ++ node :: after).modify before.length change = before ++ change node :: after := by
  induction before with
  | nil => rfl
  | cons first before inductionHypothesis =>
      rw [List.cons_append, List.length_cons, List.modify_succ_cons, inductionHypothesis,
        List.cons_append]

mutual

theorem addTo_eq (nodes : List Node) (parent : Option Nat) (element : Element) :
    addTo nodes parent element = nodes ++ nodesFrom parent nodes.length element := by
  obtain ⟨tag, text, children⟩ := element
  rw [addTo, addAllTo_eq nodes _ [] children, nodesFrom]
  simp

/-- All that changes among the nodes that there are is what the parent has noted. -/
theorem addAllTo_eq (before : List Node) (outer : Node) (after : List Node)
    (elements : List Element) :
    addAllTo (before ++ outer :: after) before.length elements =
      before ++ { outer with
        children := outer.children ++ numbersFrom (before ++ outer :: after).length elements } ::
          (after ++
            nodesOfAll (some before.length) (before ++ outer :: after).length elements) := by
  cases elements with
  | nil => simp [addAllTo, numbersFrom, nodesOfAll]
  | cons first rest =>
      rw [addAllTo, addTo_eq, List.append_assoc, List.cons_append, modify_append_cons,
        addAllTo_eq before _ _ rest, numbersFrom, nodesOfAll]
      have isLength (node : Node) : (before ++ node :: (after ++ nodesFrom (some before.length)
          (before ++ outer :: after).length first)).length =
            (before ++ outer :: after).length + first.size := by
        simp only [List.length_append, List.length_cons, length_nodesFrom]
        omega
      rw [isLength, List.append_assoc, List.append_assoc, List.singleton_append]

end

section

variable (root : Element)

/-- The parent of a node is the one among whose children it is noted. -/
theorem parent_eq_some_iff (outer inner : Nat) :
    (root.nodes[inner]?).bind Node.parent = some outer ↔ Links root.nodes outer inner := by
  constructor
  · intro isParent
    obtain ⟨node, isNode, ofNode⟩ := Option.bind_eq_some_iff.mp isParent
    rcases nodesFrom_parent none 0 root (node, inner)
        (List.mk_mem_zipIdx_iff_getElem?.mpr isNode) with ⟨_, noParent⟩ | ⟨other, isOther, links⟩
    · cases ofNode.symm.trans noParent
    · cases ofNode.symm.trans links.1
      exact ⟨other.1, List.mk_mem_zipIdx_iff_getElem?.mp isOther, links.2⟩
  · rintro ⟨node, isNode, isMember⟩
    obtain ⟨_, child, isChild, isParent⟩ := nodesFrom_children none 0 root (node, outer)
      (List.mk_mem_zipIdx_iff_getElem?.mpr isNode) inner isMember
    have isInner : root.nodes[inner]? = some child := List.mk_mem_zipIdx_iff_getElem?.mp isChild
    rw [isInner]
    exact isParent

theorem lt_of_links {outer inner : Nat} (isChild : Links root.nodes outer inner) :
    outer < inner := by
  obtain ⟨node, isNode, isMember⟩ := isChild
  exact (nodesFrom_children none 0 root (node, outer)
    (List.mk_mem_zipIdx_iff_getElem?.mpr isNode) inner isMember).1

theorem parent_root : ∃ node, root.nodes[0]? = some node ∧ node.parent = none := by
  obtain ⟨tag, text, children⟩ := root
  exact ⟨_, rfl, rfl⟩

theorem nodes_isArena : IsArena root.nodes where
  root := root.parent_root
  parent number node isNode notRoot := by
    rcases nodesFrom_parent none 0 root (node, number)
        (List.mk_mem_zipIdx_iff_getElem?.mpr isNode) with
      ⟨isRoot, _⟩ | ⟨outer, isOuter, isParent, isMember⟩
    · exact absurd isRoot notRoot
    · have isChild : Links root.nodes outer.2 number :=
        ⟨outer.1, List.mk_mem_zipIdx_iff_getElem?.mp isOuter, isMember⟩
      exact ⟨outer.2, root.lt_of_links isChild, isParent, isChild⟩
  once number := by
    have perm : (root.nodes.flatMap Node.children).Perm (List.range' 1 (root.size - 1)) :=
      nodesFrom_children_perm none 0 root
    have := root.size_pos
    rw [perm.count_eq, length_nodes, List.Nodup.count List.nodup_range']
    simp only [List.mem_range'_1]
    exact ite_cond_congr (propext (by omega))
  increasing node isNode := by
    obtain ⟨inner, first, _, isChildren⟩ := nodesFrom_contents none 0 root node isNode
    rw [isChildren]
    exact numbersFrom_increasing first inner.children
  contiguous outer isNode := by
    obtain ⟨place, isPlace⟩ := Option.isSome_iff_exists.mp (place?_isSome isNode)
    have fits := place?_fits isPlace
    have := place.element.size_pos
    exact ⟨outer + place.element.size, by omega, fits, reaches_iff isPlace⟩
  text node isNode := by
    obtain ⟨⟨tag, text, children⟩, first, isText, isChildren⟩ :=
      nodesFrom_contents none 0 root node isNode
    rw [isText, isChildren]
    cases children <;> simp [text?, Element.children, numbersFrom]

/-- The way up goes to smaller numbers, so it takes no more steps than the number says. -/
theorem climbs_ascends (ancestor : Nat) {steps number : Nat} (enough : number ≤ steps) :
    Climbs root.nodes ancestor number (ascends root.nodes ancestor steps number) := by
  induction steps generalizing number with
  | zero =>
      obtain rfl := Nat.le_zero.mp enough
      rw [ascends]
      by_cases same : 0 = ancestor
      · subst same
        exact .met
      · obtain ⟨node, isNode, noParent⟩ := root.parent_root
        rw [beq_false_of_ne same]
        exact .ended same (by rw [isNode]; exact noParent)
  | succ steps inductionHypothesis =>
      rw [ascends]
      by_cases same : number = ancestor
      · subst same
        rw [beq_self_eq_true, Bool.true_or]
        exact .met
      · rw [beq_false_of_ne same, Bool.false_or]
        cases isParent : (root.nodes[number]?).bind Node.parent with
        | none => exact .ended same isParent
        | some parent =>
            have := root.lt_of_links ((root.parent_eq_some_iff parent number).mp isParent)
            exact .up same isParent (inductionHypothesis (by omega))

theorem climbs_isWithin (number ancestor : Nat) :
    Climbs root.nodes ancestor number (root.isWithin number ancestor) := by
  by_cases isNode : number ≤ root.nodes.length
  · exact root.climbs_ascends ancestor isNode
  · obtain ⟨steps, isLength⟩ := Nat.exists_eq_succ_of_ne_zero
      (Nat.ne_of_gt (root.length_nodes ▸ root.size_pos))
    have isTop : (root.nodes[number]?).bind Node.parent = none := by
      rw [List.getElem?_eq_none (by omega), Option.bind_none]
    rw [isWithin, isLength, ascends, isTop, Bool.or_false]
    by_cases same : number = ancestor
    · subst same
      rw [beq_self_eq_true]
      exact .met
    · rw [beq_false_of_ne same]
      exact .ended same isTop

theorem reaches_of_climbs {number ancestor : Nat}
    (climbs : Climbs root.nodes ancestor number true) : Reaches root.nodes ancestor number := by
  generalize isAnswer : true = answer at climbs
  induction climbs with
  | met => exact .refl
  | ended => cases isAnswer
  | up _ isParent _ inductionHypothesis =>
      exact (inductionHypothesis isAnswer).tail ((root.parent_eq_some_iff _ _).mp isParent)

/-- The way up takes the links of the way down in reverse, since a node has one parent. -/
theorem climbs_of_reaches {number ancestor : Nat} (reaches : Reaches root.nodes ancestor number)
    {answer : Bool} (climbs : Climbs root.nodes ancestor number answer) : answer = true := by
  induction reaches with
  | refl =>
      cases climbs with
      | met => rfl
      | ended other => exact absurd rfl other
      | up other => exact absurd rfl other
  | tail _ isChild inductionHypothesis =>
      have linked := (root.parent_eq_some_iff _ _).mpr isChild
      cases climbs with
      | met => rfl
      | ended _ isTop => cases isTop.symm.trans linked
      | up _ isParent later =>
          cases isParent.symm.trans linked
          exact inductionHypothesis later

theorem isWithin_iff_reaches (number ancestor : Nat) :
    root.isWithin number ancestor = true ↔ Reaches root.nodes ancestor number := by
  have climbs := root.climbs_isWithin number ancestor
  constructor
  · intro isWithin
    rw [isWithin] at climbs
    exact root.reaches_of_climbs climbs
  · exact fun reaches => root.climbs_of_reaches reaches climbs

theorem isWithin_iff {outer : Nat} {place : Place} (isPlace : root.place? outer = some place)
    (number : Nat) :
    root.isWithin number outer = true ↔ outer ≤ number ∧ number < outer + place.element.size :=
  (root.isWithin_iff_reaches number outer).trans (reaches_iff isPlace number)

theorem isWithin_trans {number inner outer : Nat} (isInner : root.isWithin number inner = true)
    (isOuter : root.isWithin inner outer = true) : root.isWithin number outer = true := by
  rw [isWithin_iff_reaches] at isInner isOuter ⊢
  exact isOuter.trans isInner

/-- What is built node by node is an arena. The way up from any node ends, with the answer whether
child links lead from the other node to it. -/
theorem nodes_arena : addTo [] none root = root.nodes ∧ IsArena root.nodes ∧
    ∀ number ancestor, Climbs root.nodes ancestor number (root.isWithin number ancestor) ∧
      (root.isWithin number ancestor = true ↔ Reaches root.nodes ancestor number) :=
  ⟨addTo_eq [] none root, root.nodes_isArena, fun number ancestor =>
    ⟨root.climbs_isWithin number ancestor, root.isWithin_iff_reaches number ancestor⟩⟩

end

end Element

end ManagementShell
