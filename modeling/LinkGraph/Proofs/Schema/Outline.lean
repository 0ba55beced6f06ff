import LinkGraph.Plan.Basic
import LinkGraph.Schema.Demand

namespace LinkGraph

/-- An ordered forest: its first tree, as a label and what is below it, and the trees after it. -/
inductive Forest (α : Type) where
  | nil
  | cons (a : α) (below next : Forest α)
  deriving DecidableEq, Repr

namespace Forest

variable {α β : Type}

def append : Forest α → Forest α → Forest α
  | nil, g => g
  | cons a below next, g => cons a below (next.append g)

instance : Append (Forest α) := ⟨append⟩

@[simp] theorem nil_append (g : Forest α) : nil ++ g = g := rfl

@[simp] theorem cons_append (a : α) (below next g : Forest α) :
    cons a below next ++ g = cons a below (next ++ g) := rfl

def leaf (a : α) : Forest α := cons a nil nil

def map (f : α → β) : Forest α → Forest β
  | nil => nil
  | cons a below next => cons (f a) (below.map f) (next.map f)

def roots : Forest α → List α
  | nil => []
  | cons a _ next => a :: next.roots

theorem map_eq_nil_iff {f : α → β} {g : Forest α} : g.map f = nil ↔ g = nil := by
  cases g <;> simp [map]

end Forest

/-- What a schema says of one node: its name, the kind of its values, whether it is required. -/
structure Entity where
  name : String
  valueType : Kind
  required : Bool
  deriving DecidableEq, Repr

def Entity.demand (e : Entity) : Nat :=
  Schema.entityDemand + if e.required then Schema.markDemand else 0

namespace Forest

def demand : Forest Entity → Nat
  | nil => 0
  | cons e below next => e.demand + below.demand + next.demand

@[simp] theorem demand_nil : (nil : Forest Entity).demand = 0 := rfl

@[simp] theorem demand_cons (e : Entity) (below next : Forest Entity) :
    (cons e below next).demand = e.demand + below.demand + next.demand := rfl

theorem demand_append (f g : Forest Entity) : (f ++ g).demand = f.demand + g.demand := by
  induction f with
  | nil => exact (Nat.zero_add _).symm
  | cons e below next _ ih =>
      rw [cons_append, demand_cons, ih, demand_cons, Nat.add_assoc _ _ g.demand]

end Forest

namespace Schema

mutual

/-- The entities of a schema that has the given name. Lists stand for their item, and what states
nothing leaves nothing. -/
def outline (name : String) (required : Bool) : Schema → Forest Entity
  | .boolean _ => .leaf ⟨name, .object, required⟩
  | .string _ => .leaf ⟨name, .string, required⟩
  | .number _ => .leaf ⟨name, .number, required⟩
  | .object _ properties names =>
      .cons ⟨name, .object, required⟩ (propertiesOutline names properties) .nil
  | .list _ item => item.outline name required
  | .tuple _ items => .cons ⟨name, .object, required⟩ (itemsOutline name 0 items) .nil
  | .other => .nil

def propertiesOutline (names : Std.ExtTreeSet String) : List (String × Schema) → Forest Entity
  | [] => .nil
  | (name, s) :: rest => s.outline name (names.contains name) ++ propertiesOutline names rest

def itemsOutline (name : String) (index : Nat) : List Schema → Forest Entity
  | [] => .nil
  | s :: rest => s.outline (Site.itemName name index) false ++ itemsOutline name (index + 1) rest

end

def skeleton (s : Schema) : Forest Entity := s.outline (Plan.rootName s) false

theorem outline_eq_nil_iff (s : Schema) (name : String) (required : Bool) :
    s.outline name required = .nil ↔ s.hasNode = false :=
  match s with
  | .boolean _ | .string _ | .number _ | .object _ _ _ | .tuple _ _ => by
      simp [outline, Forest.leaf, hasNode]
  | .list _ item => by
      rw [outline, hasNode]
      exact outline_eq_nil_iff item name required
  | .other => by simp [outline, hasNode]

mutual

theorem demand_outline (s : Schema) (name : String) (required : Bool) :
    (s.outline name required).demand = s.demand + marks required s :=
  match s with
  | .boolean _ | .string _ | .number _ => by
      simp [outline, Forest.leaf, Entity.demand, demand, marks, hasNode]
  | .object _ properties names => by
      rw [outline, Forest.demand_cons, demand_propertiesOutline]
      simp only [Entity.demand, demand, marks, hasNode, Forest.demand_nil, Bool.and_true]
      omega
  | .list _ item => by
      rw [outline, demand_outline item name required]
      simp [demand, marks, hasNode]
  | .tuple _ items => by
      rw [outline, Forest.demand_cons, demand_itemsOutline]
      simp only [Entity.demand, demand, marks, hasNode, Forest.demand_nil, Bool.and_true]
      omega
  | .other => by simp [outline, demand, marks, hasNode]

theorem demand_propertiesOutline (names : Std.ExtTreeSet String)
    (properties : List (String × Schema)) :
    (propertiesOutline names properties).demand = propertiesDemand names properties :=
  match properties with
  | [] => rfl
  | (name, s) :: rest => by
      rw [propertiesOutline, Forest.demand_append, demand_outline s,
        demand_propertiesOutline names rest, propertiesDemand]

theorem demand_itemsOutline (name : String) (index : Nat) (items : List Schema) :
    (itemsOutline name index items).demand = itemsDemand items :=
  match items with
  | [] => rfl
  | s :: rest => by
      rw [itemsOutline, Forest.demand_append, demand_outline s,
        demand_itemsOutline name (index + 1) rest, itemsDemand]
      simp [marks]

end

theorem demand_skeleton (s : Schema) : s.skeleton.demand = s.demand := by
  rw [skeleton, demand_outline]
  simp [marks]

theorem skeleton_eq_nil_iff (s : Schema) : s.skeleton = .nil ↔ s.hasNode = false :=
  outline_eq_nil_iff s _ _

end Schema

end LinkGraph
