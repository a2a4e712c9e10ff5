import DownloadCache.FileSystem.Object
import DownloadCache.FileSystem.Place
import DownloadCache.Lookup

/-!
# Trees of objects

What a file system holds: an object and, under names, the trees of what it holds in turn.  A tree
is entered name by name (`child?`) or at once by a location (`find?`), and is changed at a
location (`modify`).  A location reads upwards, so both recurse on the location: the way to an
object is the way to the directory that holds it and one name more.

The laws say what is found after a change.  At the location that has been changed the change is
found (`find?_modify`), also by going on from there (`find?_append`); at every location that is
not within it the same object is found as before (`object_find?_modify`).
-/

namespace DownloadCache

set_option autoImplicit false

/-- An object with the trees that it holds under their names. -/
inductive Tree where
  | node (object : Object) (children : List (String × Tree))

namespace Tree

/-- The object at the top of a tree. -/
def object : Tree → Object
  | .node object _ => object

/-- The trees directly within a tree, with their names. -/
def children : Tree → List (String × Tree)
  | .node _ children => children

/-- An object that holds nothing. -/
def leaf (object : Object) : Tree :=
  .node object []

/-- The names directly within a tree. -/
def names (tree : Tree) : List String :=
  tree.children.map (·.1)

/-! ## Equality -/

mutual

/-- Decides whether two trees are equal. -/
def decideEq : (one other : Tree) → Decidable (one = other)
  | .node object children, .node object' children' =>
      match decEq object object', decideAllEq children children' with
      | isTrue objects, isTrue trees => isTrue (by rw [objects, trees])
      | isFalse objects, _ => isFalse fun same => objects (by injection same)
      | _, isFalse trees => isFalse fun same => trees (by injection same)

/-- Decides whether two lists of named trees are equal. -/
def decideAllEq : (one other : List (String × Tree)) → Decidable (one = other)
  | [], [] => isTrue rfl
  | [], _ :: _ => isFalse nofun
  | _ :: _, [] => isFalse nofun
  | (name, tree) :: rest, (name', tree') :: rest' =>
      match decEq name name', decideEq tree tree', decideAllEq rest rest' with
      | isTrue names, isTrue trees, isTrue rests => isTrue (by rw [names, trees, rests])
      | isFalse names, _, _ => isFalse (by simp [names])
      | _, isFalse trees, _ => isFalse (by simp [trees])
      | _, _, isFalse rests => isFalse (by simp [rests])

end

instance : DecidableEq Tree :=
  decideEq

/-! ## Finding -/

/-- The tree under a name. -/
def child? (tree : Tree) (name : String) : Option Tree :=
  tree.children.lookup name

/-- The tree at a location. -/
def find? (tree : Tree) : Location → Option Tree
  | [] => some tree
  | name :: above => (tree.find? above).bind (·.child? name)

mutual

/-- All objects strictly within a tree, each after those within it, with the locations that they
have in the tree, which go on from a given one. -/
def within (above : Location) : Tree → List (Location × Object)
  | .node _ children => withinAll above children

/-- All objects within named trees. -/
def withinAll (above : Location) : List (String × Tree) → List (Location × Object)
  | [] => []
  | (name, tree) :: rest =>
      tree.within (name :: above) ++ (name :: above, tree.object) :: withinAll above rest

end

/-! ## Changes -/

/-- Puts a tree under a name, in the place of what is there. -/
def setChild (tree : Tree) (name : String) (child : Tree) : Tree :=
  .node tree.object ((name, child) :: tree.children.filter fun entry => entry.1 != name)

/-- Takes away what is under a name. -/
def removeChild (tree : Tree) (name : String) : Tree :=
  .node tree.object (tree.children.filter fun entry => entry.1 != name)

/-- Changes the tree under a name. -/
def modifyChild (tree : Tree) (name : String) (change : Tree → Tree) : Tree :=
  .node tree.object
    (tree.children.map fun (other, child) => (other, if other = name then change child else child))

/-- Changes the tree at a location. -/
def modify (tree : Tree) : Location → (Tree → Tree) → Tree
  | [], change => change tree
  | name :: above, change => tree.modify above (·.modifyChild name change)

/-- Puts a tree at a location, in the place of what is there. -/
def insert (tree : Tree) (location : Location) (new : Tree) : Tree :=
  match location with
  | [] => new
  | name :: above => tree.modify above (·.setChild name new)

/-- Takes away what is at a location; the top of a tree stays. -/
def erase (tree : Tree) (location : Location) : Tree :=
  match location with
  | [] => tree
  | name :: above => tree.modify above (·.removeChild name)

mutual

/-- Changes every object of a tree. -/
def map (change : Object → Object) : Tree → Tree
  | .node object children => .node (change object) (mapAll change children)

/-- Changes every object of named trees. -/
def mapAll (change : Object → Object) : List (String × Tree) → List (String × Tree)
  | [] => []
  | (name, tree) :: rest => (name, tree.map change) :: mapAll change rest

end

/-! ## What is under a name after a change -/

/-- A tree that is put under a name is found there, and nothing else changes. -/
theorem child?_setChild (tree child : Tree) (name other : String) :
    (tree.setChild name child).child? other =
      if other = name then some child else tree.child? other := by
  rw [child?, setChild, children, List.lookup_cons, lookup_filter_bne]
  by_cases same : other = name
  · simp [same]
  · simp [same, beq_eq_false_iff_ne.mpr same, child?]

/-- Nothing is found under a name whose tree is taken away, and nothing else changes. -/
theorem child?_removeChild (tree : Tree) (name other : String) :
    (tree.removeChild name).child? other = if other = name then none else tree.child? other := by
  rw [child?, removeChild, children, lookup_filter_bne]
  simp [child?]

/-- A change under a name is found there, and nothing else changes. -/
theorem child?_modifyChild (tree : Tree) (name other : String) (change : Tree → Tree) :
    (tree.modifyChild name change).child? other =
      (tree.child? other).map fun child => if other = name then change child else child :=
  lookup_map_values (fun first child => if first = name then change child else child)
    tree.children other

/-- What is found under a name when every object has been changed. -/
theorem lookup_mapAll (change : Object → Object) (children : List (String × Tree))
    (name : String) :
    (mapAll change children).lookup name = (children.lookup name).map (·.map change) := by
  induction children with
  | nil => rfl
  | cons entry rest ih =>
      obtain ⟨first, tree⟩ := entry
      rw [mapAll, List.lookup_cons, List.lookup_cons, ih]
      cases name == first <;> rfl

/-! ## What is found at locations -/

/-- What is found below a location is found by going on from what is there. -/
theorem find?_append (tree : Tree) (below location : Location) :
    tree.find? (below ++ location) = (tree.find? location).bind (·.find? below) := by
  induction below with
  | nil => simp [find?]
  | cons name above ih => rw [List.cons_append, find?, ih, Option.bind_assoc]; rfl

/-- A change at a location is found there. -/
theorem find?_modify (tree : Tree) (location : Location) (change : Tree → Tree) :
    (tree.modify location change).find? location = (tree.find? location).map change := by
  induction location generalizing change with
  | nil => rfl
  | cons name above ih =>
      rw [modify, find?, ih, find?]
      cases tree.find? above with
      | none => rfl
      | some directory => simp [child?_modifyChild]

/-- A change below a location is a change of what is found there. -/
theorem find?_modify_append (tree : Tree) (below location : Location) (change : Tree → Tree) :
    (tree.modify (below ++ location) change).find? location =
      (tree.find? location).map (·.modify below change) := by
  induction below generalizing change with
  | nil => exact tree.find?_modify location change
  | cons name above ih => exact ih (·.modifyChild name change)

/-- A change further down leaves the names in a tree alone. -/
theorem names_modify (tree : Tree) {location : Location} (below : location ≠ [])
    (change : Tree → Tree) : (tree.modify location change).names = tree.names := by
  induction location generalizing change with
  | nil => exact absurd rfl below
  | cons name above ih =>
      cases above with
      | nil =>
          rw [names, names, modify, modify, modifyChild, children, List.map_map]
          rfl
      | cons next further => exact ih (by simp) (·.modifyChild name change)

/-- Nothing is found within an object that holds nothing. -/
theorem find?_leaf (object : Object) (location : Location) :
    (leaf object).find? location = if location = [] then some (leaf object) else none := by
  induction location with
  | nil => rfl
  | cons name above ih =>
      rw [find?, ih]
      by_cases top : above = [] <;> simp [top, leaf, child?, children]

/-- A tree that is put where something can hold it is found. -/
theorem find?_insert (tree new : Tree) {location : Location}
    (held : (tree.find? location.parent).isSome) :
    (tree.insert location new).find? location = some new := by
  cases location with
  | nil => rfl
  | cons name above =>
      obtain ⟨directory, found⟩ := Option.isSome_iff_exists.mp held
      have found : tree.find? above = some directory := found
      simp [insert, find?, find?_modify, found, child?_setChild]

/-- What is taken away is not found. -/
theorem find?_erase (tree : Tree) (name : String) (above : Location) :
    (tree.erase (name :: above)).find? (name :: above) = none := by
  rw [erase, find?, find?_modify]
  cases tree.find? above with
  | none => rfl
  | some directory => simp [child?_removeChild]

/-- Changed objects are found where the objects are found. -/
theorem find?_map (tree : Tree) (change : Object → Object) (location : Location) :
    (tree.map change).find? location = (tree.find? location).map (·.map change) := by
  induction location with
  | nil => rfl
  | cons name above ih =>
      rw [find?, ih, find?]
      cases tree.find? above with
      | none => rfl
      | some directory =>
          obtain ⟨object, children⟩ := directory
          exact lookup_mapAll change children name

/-! ## What a change leaves alone -/

/-- Whether a change keeps the object at the top and all that is not under a name. -/
def KeepsOthers (name : String) (change : Tree → Tree) : Prop :=
  ∀ tree : Tree, (change tree).object = tree.object ∧
    ∀ other, other ≠ name → (change tree).child? other = tree.child? other

theorem keepsOthers_setChild (name : String) (child : Tree) :
    KeepsOthers name (·.setChild name child) :=
  fun tree => ⟨rfl, fun other apart => by simp [child?_setChild, apart]⟩

theorem keepsOthers_removeChild (name : String) : KeepsOthers name (·.removeChild name) :=
  fun tree => ⟨rfl, fun other apart => by simp [child?_removeChild, apart]⟩

theorem keepsOthers_modifyChild (name : String) (change : Tree → Tree) :
    KeepsOthers name (·.modifyChild name change) :=
  fun tree => ⟨rfl, fun other apart => by simp [child?_modifyChild, apart]⟩

/-- A change under a name keeps what is found through other names. -/
theorem KeepsOthers.find? {name : String} {change : Tree → Tree} (keeps : KeepsOthers name change)
    (tree : Tree) {other : Location} (apart : ¬[name] <:+ other) (below : other ≠ []) :
    (change tree).find? other = tree.find? other := by
  obtain ⟨front, first, rfl⟩ := (List.eq_nil_or_concat other).resolve_left below
  have differs : first ≠ name := fun same => apart (by simp [same])
  rw [List.concat_eq_append, find?_append, find?_append]
  simp [Tree.find?, (keeps tree).2 first differs]

/-- A change under a name keeps the objects that are not found through this name. -/
theorem KeepsOthers.object_find? {name : String} {change : Tree → Tree}
    (keeps : KeepsOthers name change) (tree : Tree) {other : Location}
    (apart : ¬[name] <:+ other) :
    ((change tree).find? other).map object = (tree.find? other).map object := by
  by_cases top : other = []
  · simp [top, Tree.find?, (keeps tree).1]
  · rw [keeps.find? tree apart top]

/-- A change under a name of what is at a location keeps the objects at all other locations but
those below that name. -/
theorem KeepsOthers.object_find?_modify {name : String} {change : Tree → Tree}
    (keeps : KeepsOthers name change) (tree : Tree) {above other : Location}
    (apart : ¬name :: above <:+ other) :
    ((tree.modify above change).find? other).map object = (tree.find? other).map object := by
  induction above generalizing name change with
  | nil => exact keeps.object_find? tree apart
  | cons next above ih =>
      by_cases under : next :: above <:+ other
      · obtain ⟨below, rfl⟩ := under
        have apartBelow : ¬[name] <:+ below := fun ⟨front, ends⟩ =>
          apart ⟨front, by simp [← ends]⟩
        rw [find?_append, find?_modify, find?_append]
        cases tree.find? (next :: above) with
        | none => rfl
        | some directory => exact keeps.object_find? directory apartBelow
      · exact ih (keepsOthers_modifyChild next change) under

/-- A change under a name of what is at a location keeps what is found at all other locations that
are neither below that name nor above it. -/
theorem KeepsOthers.find?_modify {name : String} {change : Tree → Tree}
    (keeps : KeepsOthers name change) (tree : Tree) {above other : Location}
    (apart : ¬name :: above <:+ other) (beside : ¬other <:+ above) :
    (tree.modify above change).find? other = tree.find? other := by
  induction above generalizing name change with
  | nil => exact keeps.find? tree apart fun top => beside (top ▸ List.nil_suffix)
  | cons next above ih =>
      by_cases under : next :: above <:+ other
      · obtain ⟨below, rfl⟩ := under
        have apartBelow : ¬[name] <:+ below := fun ⟨front, ends⟩ =>
          apart ⟨front, by simp [← ends]⟩
        have strictly : below ≠ [] := fun top => beside (by simp [top])
        rw [find?_append, Tree.find?_modify, find?_append]
        cases tree.find? (next :: above) with
        | none => rfl
        | some directory => exact keeps.find? directory apartBelow strictly
      · exact ih (keepsOthers_modifyChild next change) under fun within =>
          beside (within.trans (List.suffix_cons next above))

/-- A change at a location keeps the objects at all locations that are not within it. -/
theorem object_find?_modify (tree : Tree) {location other : Location} (change : Tree → Tree)
    (apart : ¬location <:+ other) :
    ((tree.modify location change).find? other).map object = (tree.find? other).map object := by
  cases location with
  | nil => exact absurd List.nil_suffix apart
  | cons name above => exact (keepsOthers_modifyChild name change).object_find?_modify tree apart

/-- Putting a tree at a location keeps the objects at all locations that are not within it. -/
theorem object_find?_insert (tree new : Tree) {location other : Location}
    (apart : ¬location <:+ other) :
    ((tree.insert location new).find? other).map object = (tree.find? other).map object := by
  cases location with
  | nil => exact absurd List.nil_suffix apart
  | cons name above => exact (keepsOthers_setChild name new).object_find?_modify tree apart

/-- Taking away what is at a location keeps the objects at all locations that are not within
it. -/
theorem object_find?_erase (tree : Tree) {location other : Location}
    (apart : ¬location <:+ other) :
    ((tree.erase location).find? other).map object = (tree.find? other).map object := by
  cases location with
  | nil => exact absurd List.nil_suffix apart
  | cons name above => exact (keepsOthers_removeChild name).object_find?_modify tree apart

end Tree

end DownloadCache
