import Mathlib.Logic.Relation

/-!
# Heaps whose objects are grouped

Every object of a heap belongs to one group; other values belong to none.  Code
that runs in a group and is given some values can get at the objects of its
group, at those values, and at what the slots of these lead to, and it can
rearrange all that.  Where no slot leads from one group to another and the code
is given nothing of another group, no slot ever will.
-/

namespace GroupedHeaps

variable {Node Slot Group : Type}

/-- The value belongs to the group, or to none. -/
def Owned (groupOf : Node → Option Group) (group : Group) (node : Node) : Prop :=
  ∀ other ∈ groupOf node, other = group

/-- No slot of an object leads to another group. -/
def Separated (groupOf : Node → Option Group) (heap : Node → Slot → Option Node) : Prop :=
  ∀ node slot value group, heap node slot = some value → groupOf node = some group →
    Owned groupOf group value

/-- What code that runs in a group and is given some values can get at. -/
inductive Accessible (groupOf : Node → Option Group) (heap : Node → Slot → Option Node)
    (group : Group) (Given : Node → Prop) : Node → Prop
  | owned {node : Node} (owned : Owned groupOf group node) :
      Accessible groupOf heap group Given node
  | given {node : Node} (given : Given node) : Accessible groupOf heap group Given node
  | slot {node value : Node} {slot : Slot} (accessible : Accessible groupOf heap group Given node)
      (isObject : groupOf node ≠ none) (leads : heap node slot = some value) :
      Accessible groupOf heap group Given value

/-- What such code may make of the heap. -/
def Rearranged (groupOf : Node → Option Group) (group : Group) (Given : Node → Prop)
    (before after : Node → Slot → Option Node) : Prop :=
  ∀ node slot, after node slot = before node slot ∨
    Accessible groupOf before group Given node ∧
      ∀ value ∈ after node slot, Accessible groupOf before group Given value

/-- What the slots of an object lead to. -/
inductive Reachable (groupOf : Node → Option Group) (heap : Node → Slot → Option Node)
    (root : Node) : Node → Prop
  | root : Reachable groupOf heap root root
  | slot {node value : Node} {slot : Slot} (reachable : Reachable groupOf heap root node)
      (isObject : groupOf node ≠ none) (leads : heap node slot = some value) :
      Reachable groupOf heap root value

variable {groupOf : Node → Option Group} {heap before after : Node → Slot → Option Node}
  {group : Group} {Given : Node → Prop} {node root : Node}

theorem Separated.slot (separated : Separated groupOf heap) (owned : Owned groupOf group node)
    (isObject : groupOf node ≠ none) {slot : Slot} {value : Node}
    (leads : heap node slot = some value) : Owned groupOf group value := by
  obtain ⟨other, isOther⟩ := Option.ne_none_iff_exists'.mp isObject
  obtain rfl : other = group := owned other isOther
  exact separated node slot value other leads isOther

/-- In a separated heap everything that is accessible is owned. -/
theorem Separated.accessible (separated : Separated groupOf heap)
    (givenOwned : ∀ node, Given node → Owned groupOf group node)
    (accessible : Accessible groupOf heap group Given node) : Owned groupOf group node := by
  induction accessible with
  | owned owned => exact owned
  | given given => exact givenOwned _ given
  | slot _ isObject leads ih => exact separated.slot ih isObject leads

/-- A separated heap stays separated. -/
theorem Separated.rearranged (separated : Separated groupOf before)
    (givenOwned : ∀ node, Given node → Owned groupOf group node)
    (rearranged : Rearranged groupOf group Given before after) : Separated groupOf after := by
  intro node slot value other leads isOther
  rcases rearranged node slot with same | ⟨accessible, accessibleValues⟩
  · rw [same] at leads
    exact separated node slot value other leads isOther
  · obtain rfl : other = group := separated.accessible givenOwned accessible other isOther
    exact separated.accessible givenOwned (accessibleValues value leads)

/-- In a separated heap everything that is reachable from an object is in its
group. -/
theorem Separated.reachable (separated : Separated groupOf heap)
    (ownedRoot : Owned groupOf group root) (reachable : Reachable groupOf heap root node) :
    Owned groupOf group node := by
  induction reachable with
  | root => exact ownedRoot
  | slot _ isObject leads ih => exact separated.slot ih isObject leads

end GroupedHeaps
