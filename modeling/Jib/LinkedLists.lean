import Mathlib.Data.List.Chain
import Mathlib.Data.List.Nodup
import Mathlib.Logic.Function.Basic

/-!
# Doubly linked lists

Circular lists that run through the links of their elements and of one head.
Elements go from one list to another; at most one list holds an element at a
time.  The loops over a list follow its links while their bodies change them.
-/

namespace LinkedLists

/-- What has links: the head of a list, or an element. -/
inductive Cell (Head Node : Type)
  | head (list : Head)
  | node (element : Node)
  deriving DecidableEq

/-- The links of all cells; `none` is `NULL`. -/
structure Links (Head Node : Type) where
  next : Cell Head Node → Option (Cell Head Node)
  prev : Cell Head Node → Option (Cell Head Node)

section Operations

variable {Head Node : Type} [DecidableEq Head] [DecidableEq Node]

namespace Links

def setNext (links : Links Head Node) (cell : Cell Head Node)
    (value : Option (Cell Head Node)) : Links Head Node :=
  { links with next := Function.update links.next cell value }

def setPrev (links : Links Head Node) (cell : Cell Head Node)
    (value : Option (Cell Head Node)) : Links Head Node :=
  { links with prev := Function.update links.prev cell value }

/-- `init_list_head`. -/
def initListHead (links : Links Head Node) (list : Head) : Links Head Node :=
  (links.setPrev (.head list) (some (.head list))).setNext (.head list) (some (.head list))

/-- `__list_add`. -/
def listAddBetween (links : Links Head Node) (el prev next : Cell Head Node) :
    Links Head Node :=
  (((links.setNext prev (some el)).setPrev el (some prev)).setNext el (some next)).setPrev
    next (some el)

/-- `list_add`. -/
def listAdd (links : Links Head Node) (el : Node) (list : Head) :
    Option (Links Head Node) := do
  return links.listAddBetween (.node el) (.head list) (← links.next (.head list))

/-- `list_add_tail`. -/
def listAddTail (links : Links Head Node) (el : Node) (list : Head) :
    Option (Links Head Node) := do
  return links.listAddBetween (.node el) (← links.prev (.head list)) (.head list)

/-- What `list_del` writes. -/
def listDelBetween (links : Links Head Node) (el prev next : Cell Head Node) :
    Links Head Node :=
  (((links.setNext prev (some next)).setPrev next (some prev)).setPrev el none).setNext el none

/-- `list_del`. -/
def listDel (links : Links Head Node) (el : Node) : Option (Links Head Node) := do
  let prev ← links.prev (.node el)
  let next ← links.next (.node el)
  return links.listDelBetween (.node el) prev next

@[simp]
theorem next_listAddBetween (links : Links Head Node) (el prev next : Cell Head Node) :
    (links.listAddBetween el prev next).next =
      Function.update (Function.update links.next prev (some el)) el (some next) :=
  rfl

@[simp]
theorem prev_listAddBetween (links : Links Head Node) (el prev next : Cell Head Node) :
    (links.listAddBetween el prev next).prev =
      Function.update (Function.update links.prev el (some prev)) next (some el) :=
  rfl

@[simp]
theorem next_listDelBetween (links : Links Head Node) (el prev next : Cell Head Node) :
    (links.listDelBetween el prev next).next =
      Function.update (Function.update links.next prev (some next)) el none :=
  rfl

@[simp]
theorem prev_listDelBetween (links : Links Head Node) (el prev next : Cell Head Node) :
    (links.listDelBetween el prev next).prev =
      Function.update (Function.update links.prev next (some prev)) el none :=
  rfl

end Links

end Operations

/-! ## What lists hold -/

variable {Head Node : Type}

/-- The cells of a list, once around. -/
def ring (list : Head) (nodes : List Node) : List (Cell Head Node) :=
  .head list :: (nodes.map .node ++ [.head list])

theorem mem_ring {list : Head} {nodes : List Node} {cell : Cell Head Node} :
    cell ∈ ring list nodes ↔ cell = .head list ∨ ∃ node ∈ nodes, cell = .node node := by
  simp only [ring, List.mem_cons, List.mem_append, List.mem_map, List.not_mem_nil, or_false]
  grind

theorem nodup_cells (list : Head) {nodes : List Node} (nodup : nodes.Nodup) :
    (.head list :: nodes.map .node : List (Cell Head Node)).Nodup := by
  refine List.nodup_cons.mpr ⟨by simp, nodup.map ?_⟩
  intro first second same
  simpa using same

namespace Links

/-- Each of the two cells is a link of the other one. -/
def Linked (links : Links Head Node) (first second : Cell Head Node) : Prop :=
  links.next first = some second ∧ links.prev second = some first

/-- Links between cells are kept where neither the links forwards nor the links
back change. -/
theorem isChain_of_agree {links after : Links Head Node} {cells : List (Cell Head Node)}
    (chain : cells.IsChain links.Linked)
    (nexts : ∀ cell ∈ cells.dropLast, after.next cell = links.next cell)
    (prevs : ∀ cell ∈ cells.tail, after.prev cell = links.prev cell) :
    cells.IsChain after.Linked := by
  induction chain with
  | nil => exact .nil
  | singleton cell => exact .singleton cell
  | @cons_cons first second rest linked chain ih =>
      refine .cons_cons ⟨?_, ?_⟩ (ih ?_ ?_)
      · rw [nexts first (by simp), linked.1]
      · rw [prevs second (by simp), linked.2]
      · exact fun cell member => nexts cell (List.mem_cons_of_mem _ member)
      · exact fun cell member => prevs cell (List.mem_of_mem_tail member)

/-- The links are those of the lists that have been initialized, with their
elements; no element is in two lists. -/
structure Holds (links : Links Head Node) (content : Head → Option (List Node)) : Prop where
  chain : ∀ {list nodes}, content list = some nodes →
    (ring list nodes).IsChain links.Linked
  nodup : ∀ {list nodes}, content list = some nodes → nodes.Nodup
  disjoint : ∀ {list other nodes others}, content list = some nodes →
    content other = some others → list ≠ other → ∀ node ∈ nodes, node ∉ others

variable {links after : Links Head Node} {content : Head → Option (List Node)} {list : Head}
  {node : Node}

/-- The element is in none of the lists. -/
def Fresh (content : Head → Option (List Node)) (node : Node) : Prop :=
  ∀ {list nodes}, content list = some nodes → node ∉ nodes

/-- A change to one list and to elements that are in no other list. -/
theorem Holds.edit [DecidableEq Head] (holds : links.Holds content) (changed : List Node)
    {now : List Node}
    (nexts : ∀ cell ∉ ring list changed, after.next cell = links.next cell)
    (prevs : ∀ cell ∉ ring list changed, after.prev cell = links.prev cell)
    (apart : ∀ {other others}, content other = some others → other ≠ list →
      ∀ node ∈ changed, node ∉ others)
    (chain : (ring list now).IsChain after.Linked) (nodup : now.Nodup)
    (within : ∀ node ∈ now, node ∈ changed) :
    after.Holds (Function.update content list (some now)) where
  chain := by
    intro other others isContent
    by_cases same : other = list
    · subst same
      rw [Function.update_self, Option.some_inj] at isContent
      exact isContent ▸ chain
    · rw [Function.update_of_ne same] at isContent
      have outside : ∀ cell ∈ ring other others, cell ∉ ring list changed := by
        intro cell member inside
        rw [mem_ring] at member inside
        rcases member with rfl | ⟨node, member, rfl⟩
        · simp [same] at inside
        · have isChanged : node ∈ changed := by simpa using inside
          exact apart isContent same node isChanged member
      refine isChain_of_agree (holds.chain isContent) ?_ ?_
      · exact fun cell member => nexts cell (outside cell (List.dropLast_subset _ member))
      · exact fun cell member => prevs cell (outside cell (List.mem_of_mem_tail member))
  nodup := by
    intro other others isContent
    by_cases same : other = list
    · subst same
      rw [Function.update_self, Option.some_inj] at isContent
      exact isContent ▸ nodup
    · rw [Function.update_of_ne same] at isContent
      exact holds.nodup isContent
  disjoint := by
    intro first second firsts seconds isFirst isSecond differ node inFirst inSecond
    by_cases firstIs : first = list
    · subst firstIs
      rw [Function.update_self, Option.some_inj] at isFirst
      subst isFirst
      rw [Function.update_of_ne differ.symm] at isSecond
      exact apart isSecond differ.symm node (within node inFirst) inSecond
    · rw [Function.update_of_ne firstIs] at isFirst
      by_cases secondIs : second = list
      · subst secondIs
        rw [Function.update_self, Option.some_inj] at isSecond
        subst isSecond
        exact apart isFirst firstIs node (within node inSecond) inFirst
      · rw [Function.update_of_ne secondIs] at isSecond
        exact holds.disjoint isFirst isSecond differ node inFirst inSecond

/-! ## Places in a list -/

/-- A place in a list: the cells up to `before`, and those from `next` on. -/
structure Place (list : Head) (front back : List Node) (before next : Cell Head Node)
    (fronts backs : List (Cell Head Node)) : Prop where
  front : .head list :: front.map .node = fronts ++ [before]
  back : back.map .node ++ [.head list] = next :: backs

theorem exists_place (list : Head) (front back : List Node) :
    ∃ before next fronts backs, Place list front back before next fronts backs := by
  have hasLast : (.head list :: front.map .node : List (Cell Head Node)) ≠ [] := by simp
  have hasFirst : (back.map .node ++ [.head list] : List (Cell Head Node)) ≠ [] := by simp
  obtain ⟨next, backs, isBack⟩ := List.exists_cons_of_ne_nil hasFirst
  exact ⟨_, next, _, backs, (List.dropLast_concat_getLast hasLast).symm, isBack⟩

section

variable {front back : List Node} {before next : Cell Head Node}
  {fronts backs : List (Cell Head Node)} (place : Place list front back before next fronts backs)
include place

theorem Place.ring_append (between : List Node) :
    ring list (front ++ between ++ back) =
      fronts ++ before :: (between.map .node ++ next :: backs) := by
  calc ring list (front ++ between ++ back)
      = (.head list :: front.map .node) ++
          (between.map .node ++ (back.map .node ++ [.head list])) := by
        simp [ring]
    _ = fronts ++ before :: (between.map .node ++ next :: backs) := by
        rw [place.front, place.back, List.append_assoc, List.singleton_append]

theorem Place.before_mem : before = .head list ∨ ∃ node ∈ front, before = .node node := by
  have member : before ∈ fronts ++ [before] := by simp
  rw [← place.front] at member
  simpa [eq_comm] using member

theorem Place.next_mem : next = .head list ∨ ∃ node ∈ back, next = .node node := by
  have member : next ∈ next :: backs := by simp
  rw [← place.back] at member
  simpa [eq_comm, or_comm] using member

/-- Links between the cells before a place are kept where only the links at the
place change. -/
theorem Place.isChain_front (nodup : (front ++ back).Nodup)
    (chain : (fronts ++ [before]).IsChain links.Linked)
    (nexts : ∀ cell, cell = .head list ∨ (∃ node ∈ front, cell = .node node) → cell ≠ before →
      after.next cell = links.next cell)
    (prevs : ∀ node ∈ front, .node node ≠ next →
      after.prev (.node node) = links.prev (.node node)) :
    (fronts ++ [before]).IsChain after.Linked := by
  have cells := nodup_cells list (List.nodup_append.mp nodup).1
  rw [place.front] at cells
  refine isChain_of_agree chain ?_ ?_
  · intro cell member
    rw [List.dropLast_concat] at member
    apply nexts
    · have isCell : cell ∈ fronts ++ [before] := List.mem_append_left _ member
      rw [← place.front] at isCell
      simpa [eq_comm] using isCell
    · rintro rfl
      exact (List.nodup_append.mp cells).2.2 _ member _ (by simp) rfl
  · intro cell member
    rw [← place.front, List.tail_cons, List.mem_map] at member
    obtain ⟨node, member, rfl⟩ := member
    apply prevs node member
    intro same
    rcases place.next_mem with isHead | ⟨other, isOther, isNext⟩
    · simp [isHead] at same
    · obtain rfl : node = other := by simpa [isNext] using same
      exact (List.nodup_append.mp nodup).2.2 _ member _ isOther rfl

/-- Links between the cells after a place are kept where only the links at the
place change. -/
theorem Place.isChain_back (nodup : (front ++ back).Nodup)
    (chain : (next :: backs).IsChain links.Linked)
    (nexts : ∀ node ∈ back, .node node ≠ before →
      after.next (.node node) = links.next (.node node))
    (prevs : ∀ cell, cell = .head list ∨ (∃ node ∈ back, cell = .node node) → cell ≠ next →
      after.prev cell = links.prev cell) :
    (next :: backs).IsChain after.Linked := by
  have cells : (back.map .node ++ [.head list] : List (Cell Head Node)).Nodup :=
    (List.perm_append_singleton _ _).nodup_iff.mpr
      (nodup_cells list (List.nodup_append.mp nodup).2.1)
  refine isChain_of_agree chain ?_ ?_
  · intro cell member
    rw [← place.back, List.dropLast_concat, List.mem_map] at member
    obtain ⟨node, member, rfl⟩ := member
    apply nexts node member
    intro same
    rcases place.before_mem with isHead | ⟨other, isOther, isBefore⟩
    · simp [isHead] at same
    · obtain rfl : node = other := by simpa [isBefore] using same
      exact (List.nodup_append.mp nodup).2.2 _ isOther _ member rfl
  · intro cell member
    rw [List.tail_cons] at member
    apply prevs
    · have isCell : cell ∈ next :: backs := List.mem_cons_of_mem _ member
      rw [← place.back] at isCell
      simpa [eq_comm, or_comm] using isCell
    · rintro rfl
      rw [place.back] at cells
      exact (List.nodup_cons.mp cells).1 member

end

/-! ## What the operations do to lists -/

variable [DecidableEq Head]

theorem Holds.init [DecidableEq Node] (holds : links.Holds content) (list : Head) :
    (links.initListHead list).Holds (Function.update content list (some [])) := by
  refine holds.edit [] ?_ ?_ (by simp) ?_ .nil (by simp)
  · intro cell outside
    have other : cell ≠ .head list := by simpa [mem_ring] using outside
    simp [initListHead, setNext, setPrev, Function.update_of_ne other]
  · intro cell outside
    have other : cell ≠ .head list := by simpa [mem_ring] using outside
    simp [initListHead, setNext, setPrev, Function.update_of_ne other]
  · refine .cons_cons ⟨?_, ?_⟩ (.singleton _) <;> simp [initListHead, setNext, setPrev]

section

variable [DecidableEq Node] {front back : List Node} {before next : Cell Head Node}
  {fronts backs : List (Cell Head Node)}

/-- An element is added at a place. -/
theorem Holds.addBetween (holds : links.Holds content)
    (isList : content list = some (front ++ back)) (fresh : Fresh content node)
    (place : Place list front back before next fronts backs) :
    (links.listAddBetween (.node node) before next).Holds
      (Function.update content list (some (front ++ node :: back))) := by
  have notMember := fresh isList
  have nodup := holds.nodup isList
  have chain := holds.chain isList
  have isRing := place.ring_append []
  rw [List.append_nil, List.map_nil, List.nil_append] at isRing
  rw [isRing, List.isChain_append_cons_cons] at chain
  have newRing := place.ring_append [node]
  rw [List.append_assoc, List.singleton_append, List.map_singleton, List.singleton_append]
    at newRing
  have beforeIs := place.before_mem
  have nextIs := place.next_mem
  have notBefore : before ≠ .node node := by grind
  have notNext : next ≠ .node node := by grind
  refine holds.edit (node :: (front ++ back)) ?_ ?_ ?_ ?_
    (List.nodup_middle.mpr (List.nodup_cons.mpr ⟨notMember, nodup⟩)) (by grind)
  · intro cell outside
    rw [mem_ring] at outside
    rw [next_listAddBetween, Function.update_of_ne (by grind), Function.update_of_ne (by grind)]
  · intro cell outside
    rw [mem_ring] at outside
    rw [prev_listAddBetween, Function.update_of_ne (by grind), Function.update_of_ne (by grind)]
  · intro other others isOther differ member isMember
    rcases List.mem_cons.mp isMember with rfl | isMember
    · exact fresh isOther
    · exact holds.disjoint isList isOther differ.symm member isMember
  · rw [newRing, List.isChain_append_cons_cons, List.isChain_cons_cons]
    refine ⟨place.isChain_front nodup chain.1 ?_ ?_, ⟨?_, ?_⟩, ⟨?_, ?_⟩,
      place.isChain_back nodup chain.2.2 ?_ ?_⟩
    · intro cell isCell differ
      rw [next_listAddBetween, Function.update_of_ne (by grind), Function.update_of_ne differ]
    · intro other isOther differ
      rw [prev_listAddBetween, Function.update_of_ne differ, Function.update_of_ne (by grind)]
    · rw [next_listAddBetween, Function.update_of_ne notBefore, Function.update_self]
    · rw [prev_listAddBetween, Function.update_of_ne notNext.symm, Function.update_self]
    · rw [next_listAddBetween, Function.update_self]
    · rw [prev_listAddBetween, Function.update_self]
    · intro other isOther differ
      rw [next_listAddBetween, Function.update_of_ne (by grind), Function.update_of_ne differ]
    · intro cell isCell differ
      rw [prev_listAddBetween, Function.update_of_ne differ, Function.update_of_ne (by grind)]

omit [DecidableEq Head] [DecidableEq Node] in
/-- The head of a list is linked with the last and with the first cell. -/
theorem Holds.linked_place (holds : links.Holds content)
    (isList : content list = some (front ++ back))
    (place : Place list front back before next fronts backs) : links.Linked before next := by
  have chain := holds.chain isList
  have isRing := place.ring_append []
  rw [List.append_nil, List.map_nil, List.nil_append] at isRing
  rw [isRing, List.isChain_append_cons_cons] at chain
  exact chain.2.1

theorem Holds.listAdd {nodes : List Node} (holds : links.Holds content)
    (isList : content list = some nodes) (fresh : Fresh content node) :
    ∃ after, links.listAdd node list = some after ∧
      after.Holds (Function.update content list (some (node :: nodes))) := by
  obtain ⟨before, next, fronts, backs, place⟩ := exists_place list [] nodes
  have isHead : before = .head list := by simpa using place.before_mem
  have linked := holds.linked_place isList place
  refine ⟨_, ?_, holds.addBetween isList fresh place⟩
  rw [Links.listAdd, ← isHead, linked.1]
  rfl

theorem Holds.listAddTail {nodes : List Node} (holds : links.Holds content)
    (isList : content list = some nodes) (fresh : Fresh content node) :
    ∃ after, links.listAddTail node list = some after ∧
      after.Holds (Function.update content list (some (nodes ++ [node]))) := by
  obtain ⟨before, next, fronts, backs, place⟩ := exists_place list nodes []
  have isHead : next = .head list := by simpa using place.next_mem
  have isAll : content list = some (nodes ++ []) := by rw [isList, List.append_nil]
  have linked := holds.linked_place isAll place
  refine ⟨_, ?_, holds.addBetween isAll fresh place⟩
  rw [Links.listAddTail, ← isHead, linked.2]
  rfl

theorem Holds.listDel (holds : links.Holds content)
    (isList : content list = some (front ++ node :: back)) :
    ∃ after, links.listDel node = some after ∧
      after.Holds (Function.update content list (some (front ++ back))) := by
  obtain ⟨before, next, fronts, backs, place⟩ := exists_place list front back
  have nodup := holds.nodup isList
  have rest := (List.nodup_cons.mp (List.nodup_middle.mp nodup))
  have chain := holds.chain isList
  have isRing := place.ring_append [node]
  rw [List.append_assoc, List.singleton_append, List.map_singleton, List.singleton_append]
    at isRing
  rw [isRing, List.isChain_append_cons_cons, List.isChain_cons_cons] at chain
  obtain ⟨frontChain, ⟨beforeNode, nodeBefore⟩, ⟨nodeNext, nextNode⟩, backChain⟩ := chain
  have newRing := place.ring_append []
  rw [List.append_nil, List.map_nil, List.nil_append] at newRing
  have beforeIs := place.before_mem
  have nextIs := place.next_mem
  have notBefore : before ≠ .node node := by grind
  have notNext : next ≠ .node node := by grind
  refine ⟨links.listDelBetween (.node node) before next, ?_, ?_⟩
  · rw [Links.listDel, nodeBefore, nodeNext]
    rfl
  refine holds.edit (front ++ node :: back) ?_ ?_ ?_ ?_ rest.2 (by grind)
  · intro cell outside
    rw [mem_ring] at outside
    rw [next_listDelBetween, Function.update_of_ne (by grind), Function.update_of_ne (by grind)]
  · intro cell outside
    rw [mem_ring] at outside
    rw [prev_listDelBetween, Function.update_of_ne (by grind), Function.update_of_ne (by grind)]
  · intro other others isOther differ
    exact holds.disjoint isList isOther differ.symm
  · rw [newRing, List.isChain_append_cons_cons]
    refine ⟨place.isChain_front rest.2 frontChain ?_ ?_, ⟨?_, ?_⟩,
      place.isChain_back rest.2 backChain ?_ ?_⟩
    · intro cell isCell differ
      rw [next_listDelBetween, Function.update_of_ne (by grind), Function.update_of_ne differ]
    · intro other isOther differ
      rw [prev_listDelBetween, Function.update_of_ne (by grind), Function.update_of_ne differ]
    · rw [next_listDelBetween, Function.update_of_ne notBefore, Function.update_self]
    · rw [prev_listDelBetween, Function.update_of_ne notNext, Function.update_self]
    · intro other isOther differ
      rw [next_listDelBetween, Function.update_of_ne (by grind), Function.update_of_ne differ]
    · intro cell isCell differ
      rw [prev_listDelBetween, Function.update_of_ne (by grind), Function.update_of_ne differ]

end

section

variable [DecidableEq Node] {nodes others : List Node} {other : Head}

theorem Holds.erase (holds : links.Holds content) (isList : content list = some nodes)
    (member : node ∈ nodes) :
    ∃ after, links.listDel node = some after ∧
      after.Holds (Function.update content list (some (nodes.erase node))) := by
  obtain ⟨front, back, -, isNodes, isErased⟩ := List.exists_erase_eq member
  rw [isErased]
  exact holds.listDel (by rw [isList, isNodes])

omit [DecidableEq Node] in
theorem Holds.mem_iff (holds : links.Holds content) (isList : content list = some nodes)
    (member : node ∈ nodes) (isOther : content other = some others) :
    node ∈ others ↔ other = list := by
  constructor
  · intro inOther
    by_contra differ
    exact holds.disjoint isList isOther (Ne.symm differ) node member inOther
  · rintro rfl
    rw [isList, Option.some_inj] at isOther
    exact isOther ▸ member

/-- An element that has been taken out is in no list. -/
theorem Holds.fresh_erase (holds : links.Holds content) (isList : content list = some nodes)
    (member : node ∈ nodes) :
    Fresh (Function.update content list (some (nodes.erase node))) node := by
  intro other others isOther
  by_cases same : other = list
  · subst same
    rw [Function.update_self, Option.some_inj] at isOther
    rw [← isOther]
    exact (holds.nodup isList).not_mem_erase
  · rw [Function.update_of_ne same] at isOther
    rw [holds.mem_iff isList member isOther]
    exact same

/-- The links of an element that is in no list do not matter. -/
theorem Holds.clear (holds : links.Holds content) (fresh : Fresh content node) :
    ((links.setNext (.node node) none).setPrev (.node node) none).Holds content where
  chain := by
    intro other others isOther
    have outside : ∀ cell ∈ ring other others, cell ≠ .node node := by
      intro cell member
      rcases mem_ring.mp member with rfl | ⟨element, isElement, rfl⟩
      · simp
      · intro same
        obtain rfl : element = node := by simpa using same
        exact fresh isOther isElement
    refine isChain_of_agree (holds.chain isOther) ?_ ?_
    · intro cell member
      exact Function.update_of_ne (outside cell (List.dropLast_subset _ member)) _ _
    · intro cell member
      exact Function.update_of_ne (outside cell (List.mem_of_mem_tail member)) _ _
  nodup := holds.nodup
  disjoint := holds.disjoint

omit [DecidableEq Head] [DecidableEq Node] in
/-- Lists can be left out of account. -/
theorem Holds.forget (holds : links.Holds content) {fewer : Head → Option (List Node)}
    (among : ∀ {list nodes}, fewer list = some nodes → content list = some nodes) :
    links.Holds fewer where
  chain := fun isList => holds.chain (among isList)
  nodup := fun isList => holds.nodup (among isList)
  disjoint := fun isList isOther => holds.disjoint (among isList) (among isOther)

end

/-- The first cell of what is left of a list. -/
def firstCell (list : Head) : List Node → Cell Head Node
  | [] => .head list
  | node :: _ => .node node

omit [DecidableEq Head] in
theorem Holds.next_head {nodes : List Node} (holds : links.Holds content)
    (isList : content list = some nodes) :
    links.next (.head list) = some (firstCell list nodes) := by
  have chain := holds.chain isList
  cases nodes with
  | nil => exact (List.isChain_cons_cons.mp chain).1.1
  | cons first rest => exact (List.isChain_cons_cons.mp chain).1.1

omit [DecidableEq Head] in
theorem Holds.next_node {front back : List Node} (holds : links.Holds content)
    (isList : content list = some (front ++ node :: back)) :
    links.next (.node node) = some (firstCell list back) := by
  have chain := holds.chain isList
  have isRing : ring list (front ++ node :: back) =
      (.head list :: front.map .node) ++ .node node :: (back.map .node ++ [.head list]) := by
    simp [ring]
  rw [isRing, List.isChain_split] at chain
  cases back with
  | nil => exact (List.isChain_cons_cons.mp chain.2).1.1
  | cons first rest => exact (List.isChain_cons_cons.mp chain.2).1.1

end Links

/-! ## Loops -/

section Loops

variable {State : Type} [DecidableEq Head] (links : State → Links Head Node)
  (body : Node → State → Option State) (list : Head)

/-- `list_for_each`: the next element is the one that follows after the body. -/
def listForEach : (fuel : Nat) → Cell Head Node → State → Option State
  | 0, _, _ => none
  | _ + 1, .head other, state => if other = list then some state else none
  | fuel + 1, .node node, state => do
      let state ← body node state
      listForEach fuel (← (links state).next (.node node)) state

/-- `list_for_each_safe`: the next element is the one that followed before the
body. -/
def listForEachSafe : (fuel : Nat) → Cell Head Node → Option (Cell Head Node) → State →
    Option State
  | 0, _, _, _ => none
  | _ + 1, .head other, _, state => if other = list then some state else none
  | fuel + 1, .node node, following, state => do
      let state ← body node state
      let el ← following
      listForEachSafe fuel el ((links state).next el) state

/-- The first element is taken until there is none. -/
def listDrain : (fuel : Nat) → State → Option State
  | 0, _ => none
  | fuel + 1, state => do
      match ← (links state).next (.head list) with
      | .head other => if other = list then some state else none
      | .node node => listDrain fuel (← body node state)

variable {links body list}

/-- A body may put elements at the end of what is left of the list.  The invariant
says how many rounds are left at most. -/
theorem listForEach_of_steps {invariant : Nat → List Node → State → Prop}
    (step : ∀ size node rest state, invariant size (node :: rest) state →
      ∃ after left smaller, body node state = some after ∧ invariant smaller left after ∧
        (links after).next (.node node) = some (Links.firstCell list left) ∧ smaller < size)
    {fuel size : Nat} {nodes : List Node} {state : State} (start : invariant size nodes state)
    (enough : size < fuel) :
    ∃ after left, listForEach links body list fuel (Links.firstCell list nodes) state =
        some after ∧ invariant left [] after := by
  induction fuel generalizing size nodes state with
  | zero => exact absurd enough (Nat.not_lt_zero _)
  | succ fuel ih =>
      cases nodes with
      | nil => exact ⟨state, size, by simp [Links.firstCell, listForEach], start⟩
      | cons node rest =>
          obtain ⟨after, left, smaller, runs, holds, next, less⟩ := step size node rest state start
          obtain ⟨last, remains, ends, done⟩ := ih holds (by omega)
          refine ⟨last, remains, ?_, done⟩
          rw [Links.firstCell, listForEach, runs]
          simpa only [Option.bind_eq_bind, Option.bind_some, next] using ends

/-- A body may take its element and elements before it out of the list. -/
theorem listForEachSafe_of_steps {invariant : List Node → State → Prop}
    (walks : ∀ node rest state, invariant (node :: rest) state →
      (links state).next (.node node) = some (Links.firstCell list rest))
    (step : ∀ node rest state, invariant (node :: rest) state → ∃ after,
      body node state = some after ∧ invariant rest after)
    {fuel : Nat} {nodes : List Node} {state : State} (start : invariant nodes state)
    (enough : nodes.length < fuel) :
    ∃ after, listForEachSafe links body list fuel (Links.firstCell list nodes)
        ((links state).next (Links.firstCell list nodes)) state = some after ∧
      invariant [] after := by
  induction fuel generalizing nodes state with
  | zero => exact absurd enough (Nat.not_lt_zero _)
  | succ fuel ih =>
      cases nodes with
      | nil => exact ⟨state, by simp [Links.firstCell, listForEachSafe], start⟩
      | cons node rest =>
          obtain ⟨after, runs, holds⟩ := step node rest state start
          have following := walks node rest state start
          obtain ⟨last, ends, done⟩ := ih holds (by simpa using enough)
          refine ⟨last, ?_, done⟩
          rw [Links.firstCell, listForEachSafe, runs, following]
          exact ends

/-- The invariant says how much is left at most. -/
theorem listDrain_of_steps {invariant : Nat → State → Prop}
    (step : ∀ size state, invariant size state →
      (links state).next (.head list) = some (.head list) ∨
        ∃ node after left, (links state).next (.head list) = some (.node node) ∧
          body node state = some after ∧ invariant left after ∧ left < size)
    {fuel size : Nat} {state : State} (start : invariant size state) (enough : size < fuel) :
    ∃ after left, listDrain links body list fuel state = some after ∧ invariant left after ∧
      (links after).next (.head list) = some (.head list) := by
  induction fuel generalizing size state with
  | zero => exact absurd enough (Nat.not_lt_zero _)
  | succ fuel ih =>
      rcases step size state start with isEmpty | ⟨node, after, left, next, runs, holds, less⟩
      · exact ⟨state, size, by simp [listDrain, isEmpty], start, isEmpty⟩
      · obtain ⟨last, remains, ends, done⟩ := ih holds (by omega)
        refine ⟨last, remains, ?_, done⟩
        simp [listDrain, next, runs, ends]

end Loops

end LinkedLists
