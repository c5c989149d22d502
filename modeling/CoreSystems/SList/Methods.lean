import CoreSystems.SList.Memory

/-!
# CoreSystems.SList.Methods

The methods of `SList<T>`, statement by statement. `this` and the other operands are
identities in the object table, so `a.swap(a)` and `a = a` run the same statements
on one object.

A C++ scope that owns a local list is `withLocal`: the destructor runs when the scope
is left, by returning or by an exception. A constructor body is `constructing`: when it
throws, the object under construction never came to be.

The order of the statements is that of the source, also where it does not matter to the
outcome: `pop_front` counts down before it deletes the node, `erase_after` afterwards.
Members that are assigned one after another are assigned by one command each, so that a fault
in between would leave the object as the source leaves it.

The overloads for lvalues and rvalues, and the methods for `const` objects, run the same
statements and have one definition.
-/

namespace CoreSystems

namespace SList

variable {α β : Type}

/-! ### Members of two objects

A member is given by a getter and a setter, so `std::exchange` and `std::swap` are one
definition for all three members. -/

/-- `std::exchange(object.m, value)` for a member `m`. -/
def exchange (get : SList → β) (set : β → SList → SList) (l : ObjId) (value : β) : M α β := do
  let old ← obj l
  modifyObj l (set value)
  return get old

/-- `std::swap(this->m, other.m)` for a member `m`. -/
def swapMember (get : SList → β) (set : β → SList → SList) (this other : ObjId) : M α Unit := do
  let a ← obj this
  let b ← obj other
  modifyObj this (set (get b))
  modifyObj other (set (get a))

def setHead (p : Option Addr) (o : SList) : SList := { o with head := p }
def setTail (p : Option Addr) (o : SList) : SList := { o with tail := p }
def setSize (n : Nat) (o : SList) : SList := { o with size := n }

/-- `sync_before_head`. -/
def syncBeforeHead (this : ObjId) : M α Unit :=
  modifyObj this fun o => { o with beforeHead := o.head }

/-! ### Inserting

Allocation comes first in each method. What follows cannot throw, which is why a refused `new`
leaves the list as it was. -/

/-- `emplace_back`. -/
def emplaceBack (this : ObjId) (v : α) : M α Unit := do
  let node ← newNode v
  if (← obj this).head = none then
    modifyObj this fun o => { o with head := some node }
    modifyObj this fun o => { o with tail := o.head }
    syncBeforeHead this
  else
    -- the head stays, and the sentinel with it
    setNext (← obj this).tail (some node)
    modifyObj this fun o => { o with tail := some node }
  modifyObj this fun o => { o with size := o.size + 1 }

/-- `emplace_front`. -/
def emplaceFront (this : ObjId) (v : α) : M α Unit := do
  let node ← newNode v
  if (← obj this).head = none then
    modifyObj this fun o => { o with head := some node }
    modifyObj this fun o => { o with tail := o.head }
  else
    setNext (some node) (← obj this).head
    modifyObj this fun o => { o with head := some node }
  syncBeforeHead this
  modifyObj this fun o => { o with size := o.size + 1 }

/-- `emplace_after`. The position is taken as it comes: a position of another list, or a null
one, is not rejected by the source. -/
def emplaceAfter (this : ObjId) (pos : Iterator) (v : α) : M α Iterator := do
  let current := pos
  let node ← newNode v
  setNext (some node) (← nextOf current)
  setNextOf current (some node)
  if current = some (.beforeHead this) then
    modifyObj this fun o => { o with head := some node }
  let tail := (← obj this).tail
  -- behind the last node, or in a list that had none
  if tail.map Pos.node = current ∨ tail = none then
    modifyObj this fun o => { o with tail := some node }
  modifyObj this fun o => { o with size := o.size + 1 }
  syncBeforeHead this
  return some (.node node)

/-- `push_back`. -/
def pushBack (this : ObjId) (v : α) : M α Unit := emplaceBack this v

/-- `push_front`. -/
def pushFront (this : ObjId) (v : α) : M α Unit := emplaceFront this v

/-- `insert_after`. -/
def insertAfter (this : ObjId) (pos : Iterator) (v : α) : M α Iterator := emplaceAfter this pos v

/-! ### Removing

Nothing here allocates. A node is read for the last time before it is deleted. -/

/-- `while (curr->next()) { curr = curr->next(); prev = prev->next(); }` -/
def popBackWalk : Option Addr × Option Addr → M α ((Option Addr × Option Addr) ⊕
    (Option Addr × Option Addr))
  | (prev, curr) => do
    if (← deref curr).next = none then
      return .inr (prev, curr)
    let curr := (← deref curr).next
    let prev := (← deref prev).next
    return .inl (prev, curr)

/-- `pop_back`. -/
def popBack (this : ObjId) : M α Unit := do
  if (← obj this).head = none then
    pure ()
  else if (← deref (← obj this).head).next = none then
    deleteNode (← obj this).head
    modifyObj this fun o => { o with size := o.size - 1 }
    modifyObj this fun o => { o with head := none }
    modifyObj this fun o => { o with tail := none }
    syncBeforeHead this
  else
    -- there are two nodes at least, so the walk may look at `curr->m_next`
    let prev := (← obj this).head
    let curr := (← deref (← obj this).head).next
    let (prev, curr) ← loop popBackWalk (prev, curr)
    deleteNode curr
    setNext prev none
    modifyObj this fun o => { o with tail := prev }
    modifyObj this fun o => { o with size := o.size - 1 }
    syncBeforeHead this

/-- `pop_front`. -/
def popFront (this : ObjId) : M α Unit := do
  if (← obj this).head = none then
    pure ()
  else
    let node := (← obj this).head
    let next := (← deref (← obj this).head).next
    modifyObj this fun o => { o with head := next }
    modifyObj this fun o => { o with size := o.size - 1 }
    if (← obj this).head = none then
      modifyObj this fun o => { o with tail := none }
    deleteNode node
    syncBeforeHead this

/-- `erase_after(pos)`. -/
def eraseAfter (this : ObjId) (pos : Iterator) : M α Iterator := do
  let current := pos
  let nodeToErase ← nextOf current
  let next := (← deref nodeToErase).next
  setNextOf current next
  if nodeToErase = (← obj this).head then
    modifyObj this fun o => { o with head := next }
  if nodeToErase = (← obj this).tail then
    -- the source compares before it casts, so the sentinel is never cast
    let tail ← if current = some (.beforeHead this) then pure none else asNode current
    modifyObj this fun o => { o with tail := tail }
  deleteNode nodeToErase
  modifyObj this fun o => { o with size := o.size - 1 }
  syncBeforeHead this
  return next.map Pos.node

/-- One round of `while (first.m_current->m_next != last.m_current) erase_after(first);` -/
def eraseAfterRangeRound (this : ObjId) (first last : Iterator) (_ : Unit) : M α (Unit ⊕ Unit) := do
  if (← nextOf first).map Pos.node = last then
    return .inr ()
  let _ ← eraseAfter this first
  return .inl ()

/-- `erase_after(first, last)`. The loop looks at what is behind `first`, so a `last` that is
not behind `first` makes it run off the end of the list. -/
def eraseAfterRange (this : ObjId) (first last : Iterator) : M α Iterator := do
  loop (eraseAfterRangeRound this first last) ()
  return last

/-- One round of `while (m_head) { ... }` in `clear`. -/
def clearRound (this : ObjId) (_ : Unit) : M α (Unit ⊕ Unit) := do
  if (← obj this).head = none then
    return .inr ()
  let node := (← obj this).head
  let next := (← deref (← obj this).head).next
  modifyObj this fun o => { o with head := next }
  deleteNode node
  return .inl ()

/-- `clear`. The loop leaves `m_tail` and `m_size` as they are until all nodes are gone. -/
def clear (this : ObjId) : M α Unit := do
  loop (clearRound this) ()
  modifyObj this fun o => { o with head := none }
  modifyObj this fun o => { o with tail := none }
  modifyObj this fun o => { o with size := 0 }
  syncBeforeHead this

/-! ### Whole lists

Copies are made beside the object and swapped in. The assignments take over what the
constructors have made, through the unnamed temporary `rvalue`. -/

/-- `swap`. -/
def swap (this other : ObjId) : M α Unit := do
  swapMember SList.head setHead this other
  swapMember SList.tail setTail this other
  swapMember SList.size setSize this other
  syncBeforeHead this
  syncBeforeHead other

/-- `~SList`. -/
def destroy (this : ObjId) : M α Unit := do
  clear this
  releaseObj this

/-- A scope that owns the list `x`, which is destroyed when the scope is left. Undefined
behaviour and a loop without end are no way to leave a scope: nothing is run after them. -/
def withLocal (x : ObjId) (body : M α β) : M α β := fun s =>
  match body s with
  | .ok b s' => (do destroy x; return b) s'
  | .error .threw s' => (do destroy x; throw Exit.threw) s'
  | .error e s' => .error e s'

/-- A constructor body: when it throws there is no object. -/
def constructing (this : ObjId) (body : M α β) : M α β := fun s =>
  match body s with
  | .ok b s' => .ok b s'
  | .error .threw s' => (do releaseObj this; throw Exit.threw) s'
  | .error e s' => .error e s'

/-- `SList()`. -/
def construct (this : ObjId) : M α Unit := createObj this {}

/-- `SList(value_type)`. The node is allocated in the initializer of the first member, before
there is an object. -/
def constructValue (this : ObjId) (val : α) : M α Unit := do
  let head ← newNode val
  createObj this { head := some head, tail := some head, size := 1 }
  syncBeforeHead this

/-- `SList(std::initializer_list<value_type>)`. -/
def constructInit (this : ObjId) (values : List α) : M α Unit := do
  construct this
  constructing this do
    construct .temp
    withLocal .temp do
      values.forM (pushBack .temp)
      swap this .temp

/-- One round of `for (const auto& value : other) { temp.push_back(value); }` -/
def copyRound (it : Option Addr) : M α (Option Addr ⊕ Unit) := do
  if it = none then
    return .inr ()
  pushBack .temp (← deref it).value
  return .inl (← deref it).next

/-- `SList(const SList&)`. -/
def constructCopy (this other : ObjId) : M α Unit := do
  construct this
  constructing this do
    construct .temp
    withLocal .temp do
      loop copyRound (← obj other).head
      swap this .temp

/-- `SList(SList&&)`. The sentinel is no member that moves, so both objects synchronise
theirs. -/
def constructMove (this other : ObjId) : M α Unit := do
  let head ← exchange SList.head setHead other none
  let tail ← exchange SList.tail setTail other none
  let size ← exchange SList.size setSize other 0
  createObj this { head, tail, size }
  syncBeforeHead this
  syncBeforeHead other

/-- `operator=(const SList&)`: `SList(other).swap(*this);` -/
def assignCopy (this other : ObjId) : M α Unit := do
  constructCopy .rvalue other
  withLocal .rvalue (swap .rvalue this)

/-- `operator=(SList&&)`: `SList(std::move(other)).swap(*this);` -/
def assignMove (this other : ObjId) : M α Unit := do
  constructMove .rvalue other
  withLocal .rvalue (swap .rvalue this)

/-! ### Reading

None of these changes the memory; that they do not is what `wp.reads` is used for. -/

/-- `size()`. -/
def getSize (this : ObjId) : M α Nat := do return (← obj this).size

/-- `empty()`. -/
def empty (this : ObjId) : M α Bool := do return (← obj this).size == 0

/-- `front()`. -/
def front (this : ObjId) : M α α := do return (← deref (← obj this).head).value

/-- `back()`. -/
def back (this : ObjId) : M α α := do return (← deref (← obj this).tail).value

/-- `begin()`. -/
def begin (this : ObjId) : M α Iterator := do return (← obj this).head.map Pos.node

/-- `before_begin()`. -/
def beforeBegin (this : ObjId) : Iterator := some (.beforeHead this)

/-- `SListIterator::operator++`. -/
def increment (it : Iterator) : M α Iterator := do return (← nextOf it).map Pos.node

/-- `SListIterator::operator*`, read. -/
def dereference (it : Iterator) : M α α := do return (← deref (← asNode it)).value

/-- `*it = v`. -/
def assignThrough (it : Iterator) (v : α) : M α Unit := do
  storeNode (← asNode it) fun n => { n with value := v }

/-- One round of the walk of `operator==`. -/
def equalRound (eq : α → α → Bool) : Option Addr × Option Addr →
    M α ((Option Addr × Option Addr) ⊕ Bool)
  | (a, b) => do
    if a = none then
      return .inr true
    if !eq (← deref a).value (← deref b).value then
      return .inr false
    let a := (← deref a).next
    let b := (← deref b).next
    return .inl (a, b)

/-- `operator==`, for elements compared by `eq`. The sizes are compared first, so the walk of
`rhs` ends with that of `lhs`. -/
def equal (eq : α → α → Bool) (lhs rhs : ObjId) : M α Bool := do
  if (← obj lhs).size ≠ (← obj rhs).size then
    return false
  loop (equalRound eq) ((← obj lhs).head, (← obj rhs).head)

/-- One round of the walk of `contains`. -/
def containsRound (eq : α → α → Bool) (value : α) (node : Option Addr) :
    M α (Option Addr ⊕ Bool) := do
  if node = none then
    return .inr false
  if eq (← deref node).value value then
    return .inr true
  return .inl (← deref node).next

/-- `contains`, for elements compared by `eq`. -/
def contains (eq : α → α → Bool) (this : ObjId) (value : α) : M α Bool := do
  loop (containsRound eq value) (← obj this).head

/-- One round of the walk of `operator<<`, with what the stream holds. -/
def printRound (out : α → String) (list : ObjId) : Option Addr × String →
    M α ((Option Addr × String) ⊕ String)
  | (node, stream) => do
    if node = none then
      return .inr stream
    let stream := stream ++ out (← deref node).value
    let stream := if node ≠ (← obj list).tail then stream ++ ", " else stream
    return .inl ((← deref node).next, stream)

/-- `operator<<`, for elements that write `out`. -/
def print (out : α → String) (stream : String) (list : ObjId) : M α String := do
  loop (printRound out list) ((← obj list).head, stream)

end SList

end CoreSystems
