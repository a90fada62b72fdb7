/-
# Retrieval.Proofs.Yaml.Tree -- reading a document as reading its tree

A document with references is read node by node, under a limit, and a value is made of
the tree that has all of them replaced.  Here the reading of parts is stated on trees,
where nothing is followed and nothing runs out (`Tree.columns?`, `Tree.word?`), and the two
agree (`Reading.Follows`): where the whole tree could be afforded, so can its parts,
because no part is looked at twice.
-/
import Retrieval.Config.Reading
import Retrieval.Proofs.Yaml.Price

namespace Retrieval

set_option autoImplicit false

namespace Yaml

/-! ## Readings on trees -/

namespace Tree

/-- The text of a scalar. -/
def text? : Tree → Option String
  | .scalar _ _ text => some text
  | _ => none

/-- The fields of a mapping, or of what is not written. -/
def fields? : Tree → Option (List (Tree × Tree))
  | .mapping _ fields => some fields
  | .scalar _ .plain "" => some []
  | _ => none

/-- Spread fields over columns: a name that is filled already is an error. -/
def spread? (names : List String) :
    List (Tree × Tree) → List (Option Tree) → Option (List (Option Tree))
  | [], columns => some columns
  | (key, value) :: rest, columns => do
      match names.idxOf? (← key.text?) with
      | none => spread? names rest columns
      | some i =>
          match columns[i]? with
          | some none => spread? names rest (columns.set i (some value))
          | _ => none

/-- The columns of a tree with the given names. -/
def columns? (names : List String) (t : Tree) : Option (List (Option Tree)) :=
  t.fields?.bind fun fields => spread? names fields (List.replicate names.length none)

/-- The number in a tree. -/
def word? : Tree → Option UInt64
  | .scalar _ .plain text => Scalar.word? text.toList
  | .scalar p .literal text =>
      if p.tag = some (Tag.ofKind "int") then Scalar.word? text.toList else none
  | _ => none

/-- A number or nothing. -/
def optionalWord? (t : Tree) : Option (Option UInt64) :=
  match t with
  | .scalar p .plain text =>
      if p.tag = some (Tag.ofKind "null") then
        if Scalar.isNull text then some none else none
      else if p.tag.isNone && (text.isEmpty || Scalar.isNull text) then some none
      else t.word?.map some
  | _ => t.word?.map some

/-- The tree of a text, if it can be read. -/
def read? (text : List Char) : Option Tree :=
  (Source.read? text).bind fun s => s.run (s.tree 0 s.root)

/-- A column that is read, or its default. -/
def column? {α : Type} (default : α) (read : Tree → Option α) : Option Tree → Option α
  | none => some default
  | some t => read t

theorem length_spread? {names : List String} {fields : List (Tree × Tree)}
    {slots filled : List (Option Tree)} (spread : spread? names fields slots = some filled) :
    filled.length = slots.length := by
  induction fields generalizing slots with
  | nil =>
      cases spread
      rfl
  | cons field fields ih =>
      obtain ⟨name, _, spread⟩ := Option.bind_eq_some_iff.1 spread
      split at spread
      · exact ih spread
      · split at spread
        · rw [ih spread, List.length_set]
        · cases spread

/-- There is a column for each name. -/
theorem length_columns? {names : List String} {t : Tree} {slots : List (Option Tree)}
    (found : t.columns? names = some slots) : slots.length = names.length := by
  obtain ⟨fields, _, spread⟩ := Option.bind_eq_some_iff.1 found
  rw [length_spread? spread, List.length_replicate]

end Tree

namespace Source

open Reading

variable {α β : Type} {s : Source} {names : List String} {node key value : Linked}
  {t tk tv : Tree} {d i j k n : Nat}

/-! ## Where a node stands for a tree -/

/-- A node stands for a tree, at a price. -/
def Stands (s : Source) (d : Nat) (node : Linked) (t : Tree) (k : Nat) : Prop :=
  Costs (s.expand d node) t k

/-- Fields stand for fields, at a price for them all. -/
inductive FieldsStand (s : Source) (d : Nat) :
    List (Linked × Linked) → List (Tree × Tree) → Nat → Prop
  | nil : FieldsStand s d [] [] 0
  | cons {key value : Linked} {tk tv : Tree} {i j k : Nat} {rest : List (Linked × Linked)}
      {trees : List (Tree × Tree)} (first : Stands s d key tk i) (second : Stands s d value tv j)
      (more : FieldsStand s d rest trees k) :
      FieldsStand s d ((key, value) :: rest) ((tk, tv) :: trees) (i + j + k)

/-- Columns stand for columns, at a price for those that are filled. -/
inductive ColumnsStand (s : Source) (d : Nat) :
    List (Option Linked) → List (Option Tree) → Nat → Prop
  | nil : ColumnsStand s d [] [] 0
  | free {k : Nat} {columns : List (Option Linked)} {trees : List (Option Tree)}
      (more : ColumnsStand s d columns trees k) :
      ColumnsStand s d (none :: columns) (none :: trees) k
  | taken {node : Linked} {t : Tree} {j k : Nat} {columns : List (Option Linked)}
      {trees : List (Option Tree)} (first : Stands s d node t j)
      (more : ColumnsStand s d columns trees k) :
      ColumnsStand s d (some node :: columns) (some t :: trees) (j + k)

theorem fieldsStand_of_costs {fields : List (Linked × Linked)} {trees : List (Tree × Tree)}
    (costs : Costs (fields.mapM (s.expandField d)) trees k) : FieldsStand s d fields trees k := by
  have metered := isMetered_expandField s d
  induction fields generalizing trees k with
  | nil =>
      rw [List.mapM_nil] at costs
      obtain ⟨rfl, rfl⟩ := costs_pure_iff.1 costs
      exact .nil
  | cons field fields ih =>
      obtain ⟨key, value⟩ := field
      have others := isMetered_mapM metered fields
      rw [List.mapM_cons] at costs
      obtain ⟨⟨tk, tv⟩, i, _, costsField, costsOthers, rfl⟩ := costs.bind_inv
        (metered (key, value)) fun _ => others.bind fun _ => isMetered_pure _
      obtain ⟨rest, j, _, costsRest, last, rfl⟩ := costsOthers.bind_inv others
        fun _ => isMetered_pure _
      obtain ⟨rfl, rfl⟩ := costs_pure_iff.1 last
      obtain ⟨tk', first, _, costsKey, costsMore, rfl⟩ := costsField.bind_inv
        (isMetered_expand s d key) fun _ => (isMetered_expand s d value).bind fun _ =>
          isMetered_pure _
      obtain ⟨tv', second, _, costsValue, last, rfl⟩ := costsMore.bind_inv
        (isMetered_expand s d value) fun _ => isMetered_pure _
      obtain ⟨same, rfl⟩ := costs_pure_iff.1 last
      cases same
      exact .cons costsKey costsValue (ih costsRest)

/-- **A node that stands for a tree is of the same kind,** behind a reference or not. -/
theorem Stands.cases (stands : Stands s d node t k) :
    ∃ j, toll node + j = k ∧
      ((∃ p style text, s.settle node = .scalar p style text ∧
        t = .scalar { tag := p.tag } style text) ∨
      (∃ p items trees, s.settle node = .sequence p items ∧
        t = .sequence { tag := p.tag } trees) ∨
      ∃ p fields trees e, s.settle node = .mapping p fields ∧
        t = .mapping { tag := p.tag } trees ∧ d = e + 1 ∧ FieldsStand s e fields trees j) := by
  unfold Stands at stands
  rw [expand_eq] at stands
  obtain ⟨met, i, j, costsMet, costs, rfl⟩ := stands.bind_inv (isMetered_follow s node)
    (isMetered_grow fun e _ => isMetered_expand s e)
  obtain ⟨rfl, paid⟩ := (costs_follow s node).of_run (costsMet.run_of_le (Nat.le_refl i))
  refine ⟨j, by omega, ?_⟩
  cases met : s.settle node with
  | reference name =>
      rw [met] at costs
      cases d <;> exact absurd costs not_costs_failure
  | scalar p style text =>
      rw [met] at costs
      have last : Costs (pure (.scalar { tag := p.tag } style text)) t j := by
        cases d <;> exact costs
      exact .inl ⟨p, style, text, rfl, (costs_pure_iff.1 last).1.symm⟩
  | sequence p items =>
      rw [met] at costs
      cases d with
      | zero => exact absurd costs not_costs_failure
      | succ d =>
          obtain ⟨trees, _, _, _, last, _⟩ := costs.bind_inv
            (isMetered_mapM (isMetered_expand s d) items) fun _ => isMetered_pure _
          exact .inr (.inl ⟨p, items, trees, rfl, (costs_pure_iff.1 last).1.symm⟩)
  | mapping p fields =>
      rw [met] at costs
      cases d with
      | zero => exact absurd costs not_costs_failure
      | succ d =>
          obtain ⟨trees, _, _, costsAll, last, rfl⟩ := costs.bind_inv
            (isMetered_mapM (isMetered_expandField s d) fields) fun _ => isMetered_pure _
          obtain ⟨rfl, rfl⟩ := costs_pure_iff.1 last
          exact .inr (.inr ⟨p, fields, trees, d, rfl, rfl, rfl, fieldsStand_of_costs costsAll⟩)

/-! ## Following a tree -/

namespace Reading

variable {read x : Reading α} {f : α → Reading β} {g : α → Option β} {result given : Option α}

/-- A reading gives what there is, and takes no more than `k` from whoever has so much. -/
def Follows (read : Reading α) (result : Option α) (k : Nat) : Prop :=
  ∀ n, k ≤ n → ∃ left, n ≤ left + k ∧ read.run n = result.map fun a => (a, left)

theorem follows_pure (a : α) : Follows (pure a) (some a) 0 := fun n _ => ⟨n, Nat.le_refl n, rfl⟩

theorem follows_failure : Follows (failure : Reading α) none 0 :=
  fun n _ => ⟨n, Nat.le_refl n, rfl⟩

theorem Follows.mono (follows : Follows read result i) (le : i ≤ j) : Follows read result j := by
  intro n enough
  obtain ⟨left, kept, same⟩ := follows n (Nat.le_trans le enough)
  exact ⟨left, by omega, same⟩

theorem Follows.bind (first : Follows x given i)
    (second : ∀ a, given = some a → Follows (f a) (g a) j) :
    Follows (x >>= f) (given.bind g) (i + j) := by
  intro n enough
  obtain ⟨left, kept, same⟩ := first n (by omega)
  rw [StateT.run_bind, same]
  cases given with
  | none => exact ⟨n, by omega, rfl⟩
  | some a =>
      obtain ⟨rest, kept', same'⟩ := second a rfl left (by omega)
      exact ⟨rest, by omega, same'⟩

theorem Costs.follows {a : α} (costs : Costs read a k) : Follows read (some a) k :=
  fun n enough => ⟨n - k, by omega, costs.run_of_le enough⟩

theorem follows_lift (result : Option α) : Follows (liftM result) result 0 := by
  intro n _
  refine ⟨n, Nat.le_refl n, ?_⟩
  cases result <;> rfl

variable {γ δ : Type} {stand : α → γ → Nat → Prop} {stand' : β → δ → Nat → Prop} {found : Option γ}
  {find : γ → Option δ} {result' : Option δ}

/-- A reading gives what stands for what there is, and leaves enough to pay for that. -/
def Leads (read : Reading α) (found : Option γ) (stand : α → γ → Nat → Prop) (k : Nat) : Prop :=
  ∀ n, k ≤ n → (found = none ∧ read.run n = none) ∨
    ∃ a c j left, found = some c ∧ read.run n = some (a, left) ∧ stand a c j ∧ n + j ≤ left + k

theorem leads_pure {a : α} {c : γ} (stands : stand a c k) : Leads (pure a) (some c) stand k :=
  fun n _ => .inr ⟨a, c, k, n, rfl, rfl, stands, Nat.le_refl _⟩

theorem leads_failure : Leads (failure : Reading α) (none : Option γ) stand k :=
  fun _ _ => .inl ⟨rfl, rfl⟩

theorem Leads.mono (leads : Leads read found stand i) (le : i ≤ j) : Leads read found stand j := by
  intro n enough
  rcases leads n (Nat.le_trans le enough) with fails | ⟨a, c, l, left, there, gives, stands, most⟩
  · exact .inl fails
  · exact .inr ⟨a, c, l, left, there, gives, stands, by omega⟩

theorem Follows.leads_bind {g : α → Option γ} {stand : β → γ → Nat → Prop}
    (first : Follows x given i)
    (second : ∀ a, given = some a → Leads (f a) (g a) stand j) :
    Leads (x >>= f) (given.bind g) stand (i + j) := by
  intro n enough
  obtain ⟨left, kept, same⟩ := first n (by omega)
  rw [StateT.run_bind, same]
  cases given with
  | none => exact .inl ⟨rfl, rfl⟩
  | some a =>
      rcases second a rfl left (by omega) with
        ⟨none, fails⟩ | ⟨b, c, k, rest, there, gives, stands, le⟩
      · exact .inl ⟨none, fails⟩
      · exact .inr ⟨b, c, k, rest, there, gives, stands, by omega⟩

theorem Leads.bind (first : Leads x found stand k)
    (second : ∀ a c j, stand a c j → Leads (f a) (find c) stand' j) :
    Leads (x >>= f) (found.bind find) stand' k := by
  intro n enough
  rw [StateT.run_bind]
  rcases first n enough with ⟨rfl, fails⟩ | ⟨a, c, j, left, rfl, gives, stands, le⟩
  · rw [fails]
    exact .inl ⟨rfl, rfl⟩
  · rw [gives]
    rcases second a c j stands left (by omega) with
      ⟨none, fails⟩ | ⟨b, d, i, rest, there, gives', stands', le'⟩
    · exact .inl ⟨none, fails⟩
    · exact .inr ⟨b, d, i, rest, there, gives', stands', by omega⟩

theorem Leads.follows_bind {g : γ → Option β} (first : Leads x found stand k)
    (second : ∀ a c j, found = some c → stand a c j → Follows (f a) (g c) j) :
    Follows (x >>= f) (found.bind g) k := by
  intro n enough
  rw [StateT.run_bind]
  rcases first n enough with ⟨rfl, fails⟩ | ⟨a, c, j, left, rfl, gives, stands, le⟩
  · rw [fails]
    exact ⟨n, by omega, rfl⟩
  · rw [gives]
    obtain ⟨rest, kept, same⟩ := second a c j rfl stands left (by omega)
    exact ⟨rest, by omega, same⟩

end Reading

/-! ## Scalars -/

/-- Reading a scalar by looking at the node behind a reference. -/
theorem Stands.follows_settled {read : Linked → Reading α} {result : Option α}
    (stands : Stands s d node t k) (looks : Follows (read (s.settle node)) result 0) :
    Follows (s.follow node >>= read) result k := by
  obtain ⟨j, paid, _⟩ := stands.cases
  refine Follows.mono ?_ (by omega : toll node + 0 ≤ k)
  exact (costs_follow s node).follows.bind (g := fun _ => result) fun a same => by
    cases same
    exact looks

theorem Stands.text (stands : Stands s d node t k) : Follows (s.text node) t.text? k := by
  refine stands.follows_settled ?_
  obtain ⟨j, paid, ⟨p, style, text, met, rfl⟩ | ⟨p, items, trees, met, rfl⟩ |
    ⟨p, fields, trees, e, met, rfl, rfl, inside⟩⟩ := stands.cases <;> rw [met]
  · exact follows_pure _
  · exact follows_failure
  · exact follows_failure

theorem Stands.wordIn? (stands : Stands s d node t k) : wordIn? (s.settle node) = t.word? := by
  obtain ⟨j, paid, ⟨p, style, text, met, rfl⟩ | ⟨p, items, trees, met, rfl⟩ |
    ⟨p, fields, trees, e, met, rfl, rfl, inside⟩⟩ := stands.cases <;> rw [met]
  · cases style <;> rfl
  · rfl
  · rfl

theorem Stands.word (stands : Stands s d node t k) : Follows (s.word node) t.word? k := by
  refine stands.follows_settled ?_
  rw [stands.wordIn?]
  exact follows_lift _

theorem Stands.optionalWord (stands : Stands s d node t k) :
    Follows (s.optionalWord node) t.optionalWord? k := by
  have number :
      Follows (do return some (← Source.wordIn? (s.settle node))) (t.word?.map some) 0 := by
    rw [stands.wordIn?, Option.map_eq_bind]
    exact (follows_lift t.word?).bind fun n _ => follows_pure (some n)
  refine stands.follows_settled ?_
  obtain ⟨j, paid, ⟨p, style, text, met, rfl⟩ | ⟨p, items, trees, met, rfl⟩ |
    ⟨p, fields, trees, e, met, rfl, rfl, inside⟩⟩ := stands.cases <;> rw [met] at number ⊢
  · cases style with
    | plain =>
        unfold Tree.optionalWord?
        dsimp only
        split
        · split
          · exact follows_pure _
          · exact follows_failure
        · split
          · exact follows_pure _
          · exact number
    | literal => exact number
    | quoted => exact number
  · exact number
  · exact number

/-! ## Columns -/

theorem columnsStand_replicate (s : Source) (d n : Nat) :
    ColumnsStand s d (List.replicate n none) (List.replicate n none) 0 := by
  induction n with
  | zero => exact .nil
  | succ n ih => exact .free ih

variable {nodes : List (Option Linked)} {slots : List (Option Tree)}

theorem ColumnsStand.length_eq (stand : ColumnsStand s d nodes slots k) :
    nodes.length = slots.length := by
  induction stand with
  | nil => rfl
  | free _ ih | taken _ _ ih => simp [ih]

theorem ColumnsStand.isFree_iff (stand : ColumnsStand s d nodes slots k) (x : Nat) :
    nodes[x]? = some none ↔ slots[x]? = some none := by
  induction stand generalizing x with
  | nil => simp
  | free more ih => cases x <;> simp [ih]
  | taken first more ih => cases x <;> simp [ih]

/-- Filling a column that is free, its price is added. -/
theorem ColumnsStand.set (stand : ColumnsStand s d nodes slots k)
    (stands : Stands s d node t j) {x : Nat} (isFree : slots[x]? = some none) :
    ColumnsStand s d (nodes.set x (some node)) (slots.set x (some t)) (j + k) := by
  induction stand generalizing x with
  | nil => simp at isFree
  | free more ih =>
      cases x with
      | zero => exact .taken stands more
      | succ x => exact .free (ih (by simpa using isFree))
  | @taken _ _ i k _ _ first more ih =>
      cases x with
      | zero => simp at isFree
      | succ x =>
          rw [Nat.add_left_comm]
          exact .taken first (ih (by simpa using isFree))

/-- **Spreading fields over columns is affordable,** and so is reading what was filled. -/
theorem FieldsStand.spread {fields : List (Linked × Linked)} {trees : List (Tree × Tree)}
    (stand : FieldsStand s d fields trees k) (filled : ColumnsStand s d nodes slots j) :
    Leads (s.spread names fields nodes) (Tree.spread? names trees slots)
      (ColumnsStand s d) (k + j) := by
  induction stand generalizing nodes slots j with
  | nil =>
      rw [Nat.zero_add]
      exact leads_pure filled
  | @cons key value tk tv i l k _ _ first second more ih =>
      unfold Source.spread Tree.spread?
      rw [Nat.add_assoc, Nat.add_assoc]
      refine first.text.leads_bind fun name _ => ?_
      cases names.idxOf? name with
      | none => exact (ih filled).mono (by omega)
      | some x =>
          dsimp only
          by_cases isFree : slots[x]? = some none
          · rw [(filled.isFree_iff x).2 isFree, isFree]
            exact (ih (filled.set second isFree)).mono (by omega)
          · have taken := fun free => isFree ((filled.isFree_iff x).1 free)
            split
            · rename_i free
              exact absurd free taken
            · split
              · rename_i free
                exact absurd free isFree
              · exact leads_failure

theorem Stands.fields (stands : Stands s (d + 1) node t k) :
    Leads (s.fields node) t.fields? (FieldsStand s d) k := by
  obtain ⟨j, rfl, kind⟩ := stands.cases
  refine (costs_follow s node).follows.leads_bind (g := fun _ => t.fields?) fun met same => ?_
  cases same
  obtain ⟨p, style, text, met, rfl⟩ | ⟨p, items, trees, met, rfl⟩ |
    ⟨p, fields, trees, e, met, rfl, next, inside⟩ := kind <;> rw [met]
  · by_cases nothing : style = .plain ∧ text = ""
    · obtain ⟨rfl, rfl⟩ := nothing
      exact (leads_pure .nil).mono (Nat.zero_le j)
    · unfold Tree.fields?
      split
      · contradiction
      · rename_i same
        cases same
        exact absurd ⟨rfl, rfl⟩ nothing
      · split
        · contradiction
        · rename_i same
          cases same
          exact absurd ⟨rfl, rfl⟩ nothing
        · exact leads_failure
  · exact leads_failure
  · cases next
    exact leads_pure inside

/-- **The columns of a node are those of its tree.** -/
theorem Stands.columns (stands : Stands s (d + 1) node t k) :
    Leads (s.columns names node) (t.columns? names) (ColumnsStand s d) k :=
  stands.fields.bind fun _ _ _ inside => inside.spread (columnsStand_replicate s d names.length)

end Source

end Yaml

end Retrieval
