import Mathlib.Data.List.Nodup
import Mathlib.Data.List.Perm.Basic
import Mathlib.Tactic.MkIffOfInductiveProp
import NodeGraph.Proofs.Pieces
import NodeGraph.Proofs.Skipping

/-!
# The entries of a node

A node is read from its members one after the other, with a draft that is carried on. What a member
says does not depend on the draft, so a member is read as an `Entry` first, and the entry is added
to the draft then (`adds_nodeMember`). What comes out of adding some entries is told without an
order (`Gathers`): of ids, domains and inputs there is at most one each, and all other members are
set aside. The kind that is made out of these in the end does not depend on their order either, as
none of the keys that it asks for may occur twice (`kindOf_of_perm`).

The members of a document are treated alike: each of them gives the nodes, or nothing
(`adds_graphMember`).
-/

namespace NodeGraph.Document

/-! ### The kind of a node -/

/-- With distinct keys, a lookup finds what is there. -/
theorem lookup_eq_some_iff_mem {β : Type} {l : List (String × β)} (nodup : (l.map Prod.fst).Nodup)
    {key : String} {b : β} : l.lookup key = some b ↔ (key, b) ∈ l := by
  induction l with
  | nil => simp
  | cons p l ih =>
    obtain ⟨key', b'⟩ := p
    rw [List.map_cons, List.nodup_cons] at nodup
    rw [List.lookup_cons, List.mem_cons]
    by_cases e : key = key'
    · subst e
      have absent : (key, b) ∉ l := fun h => nodup.1 (List.mem_map.mpr ⟨_, h, rfl⟩)
      simp [absent, eq_comm]
    · rw [beq_false_of_ne e]
      simp [e, ih nodup.2]

theorem lookup_of_perm {β : Type} {l l' : List (String × β)} (nodup : (l.map Prod.fst).Nodup)
    (perm : l.Perm l') (key : String) : l.lookup key = l'.lookup key := by
  have nodup' : (l'.map Prod.fst).Nodup := (perm.map _).nodup_iff.mp nodup
  refine Option.ext fun b => ?_
  rw [lookup_eq_some_iff_mem nodup, lookup_eq_some_iff_mem nodup', perm.mem_iff]

theorem nodup_concat {β : Type} {l : List (String × β)} {key : String} (b : β) :
    ((l ++ [(key, b)]).map Prod.fst).Nodup ↔ (l.map Prod.fst).Nodup ∧ key ∉ l.map Prod.fst := by
  rw [List.map_append, List.nodup_append_comm, List.map_cons, List.map_nil, List.singleton_append,
    List.nodup_cons]
  exact and_comm

/-- A member is one of the payload, as a part of it. -/
def IsPart (fields : List (String × Shape)) (m : String × Value) (p : String × Part) : Prop :=
  ∃ shape, fields.lookup m.1 = some shape ∧ p.1 = m.1 ∧ shape.part m.2 = .ok p.2

/-- The parts of a payload are those of the members that it asks for, each of them once. -/
theorem partsOf_eq_ok_iff {fields : List (String × Shape)} {parts out : List (String × Part)}
    {ms : List (String × Value)} (nodup : (parts.map Prod.fst).Nodup) :
    partsOf fields parts ms = .ok out ↔
      ∃ new, List.Forall₂ (IsPart fields) (ms.filter fun m => (fields.lookup m.1).isSome) new ∧
        out = parts ++ new ∧ (out.map Prod.fst).Nodup := by
  induction ms generalizing parts with
  | nil =>
    constructor
    · rintro ⟨⟩
      exact ⟨[], .nil, by simp, nodup⟩
    · rintro ⟨new, ⟨⟩, rfl, -⟩
      simp [partsOf]
  | cons m ms ih =>
    obtain ⟨key, x⟩ := m
    rw [partsOf]
    cases field : fields.lookup key with
    | none =>
      rw [List.filter_cons_of_neg (by simp [field])]
      exact ih nodup
    | some shape =>
      rw [List.filter_cons_of_pos (by simp [field])]
      have known : (parts.lookup key).isSome = true ↔ key ∈ parts.map Prod.fst := by
        simp [List.lookup_isSome_iff]
      constructor
      · intro read
        dsimp only at read
        split at read
        · cases read
        · rename_i unknown
          rw [bind_eq_ok] at read
          obtain ⟨part, hp, read⟩ := read
          have nodup' := (nodup_concat part).mpr ⟨nodup, known.not.mp unknown⟩
          obtain ⟨new, each, rfl, distinct⟩ := (ih nodup').mp read
          exact ⟨(key, part) :: new, .cons ⟨shape, field, rfl, hp⟩ each, by simp, distinct⟩
      · rintro ⟨new, each, rfl, distinct⟩
        rw [List.forall₂_cons_left_iff] at each
        obtain ⟨⟨key, part⟩, new, ⟨shape', field', rfl, hp⟩, each, rfl⟩ := each
        cases field.symm.trans field'
        have prefix' : parts ++ (key, part) :: new = (parts ++ [(key, part)]) ++ new := by simp
        have nodup' : ((parts ++ [(key, part)]).map Prod.fst).Nodup := by
          rw [prefix', List.map_append] at distinct
          exact distinct.of_append_left
        dsimp only
        rw [if_neg (known.not.mpr ((nodup_concat part).mp nodup').2)]
        exact bind_eq_ok.mpr ⟨part, hp, (ih nodup').mpr ⟨new, each, prefix', distinct⟩⟩

theorem KindName.withParts_congr {parts parts' : List (String × Part)}
    (same : ∀ key, parts.lookup key = parts'.lookup key) (name : KindName) :
    name.withParts parts = name.withParts parts' := by
  cases name <;>
    simp only [withParts, requiredText, requiredNumber, numberOrZero, numbersOrNone, same]

theorem KindName.ofMembers_of_perm {ms ms' : List (String × Value)} {name : KindName}
    (perm : ms.Perm ms') (h : ofMembers ms = .ok name) : ofMembers ms' = .ok name := by
  have kinds := perm.filter fun m => m.1 == "kind"
  unfold ofMembers at h ⊢
  split at h
  · cases h
  · rename_i e
    rw [e] at kinds
    rw [List.perm_singleton.mp kinds.symm]
    exact h
  · rw [bind_eq_ok] at h
    obtain ⟨_, _, h⟩ := h
    cases h

/-- The kind of a node does not depend on the order of the members it is made out of. -/
theorem kindOf_of_perm {ms ms' : List (String × Value)} {kind : Kind} (perm : ms.Perm ms')
    (h : kindOf ms = .ok kind) : kindOf ms' = .ok kind := by
  unfold kindOf at h ⊢
  simp only [bind_eq_ok] at h ⊢
  obtain ⟨name, hn, parts, hp, h⟩ := h
  obtain ⟨new, each, rfl, nodup⟩ := (partsOf_eq_ok_iff (by simp)).mp hp
  obtain ⟨new', each', perm'⟩ := List.perm_comp_forall₂
    (perm.symm.filter fun m => (name.fields.lookup m.1).isSome) each
  have nodup' := (perm'.map Prod.fst).nodup_iff.mpr nodup
  refine ⟨name, KindName.ofMembers_of_perm perm hn, new',
    (partsOf_eq_ok_iff (by simp)).mpr ⟨new', each', rfl, nodup'⟩, ?_⟩
  rw [KindName.withParts_congr (lookup_of_perm nodup' perm')]
  exact h

/-! ### The draft of a node -/

/-- A member of a node, as it is read. -/
inductive Entry where
  | id (id : NodeId)
  | domain (domain : Domain)
  | inputs (inputs : List NodeId)
  | other (key : String) (value : Value)

namespace Entry

def id? : Entry → Option NodeId
  | id i => some i
  | _ => none

def domain? : Entry → Option Domain
  | domain d => some d
  | _ => none

def inputs? : Entry → Option (List NodeId)
  | inputs is => some is
  | _ => none

def other? : Entry → Option (String × Value)
  | other key x => some (key, x)
  | _ => none

end Entry

/-- The entry after a key. -/
def entryOf (key : String) : Reader Entry :=
  if key = "id" then fun text => afterColon nodeId text >>= fun read => .ok (.id read.1, read.2)
  else if key = "domain" then
    fun text => afterColon domain text >>= fun read => .ok (.domain read.1, read.2)
  else if key = "inputs" then
    fun text => afterColon (listOf nodeId) text >>= fun read => .ok (.inputs read.1, read.2)
  else fun text => afterColon (value valueRoom) text >>= fun read => .ok (.other key read.1, read.2)

/-- A draft with one more entry. The id, the domain and the inputs are entered once. -/
def Draft.add (draft : Draft) : Entry → Option Draft
  | .id id => if draft.id.isSome then none else some { draft with id := some id }
  | .domain d => if draft.domain.isSome then none else some { draft with domain := some d }
  | .inputs ids => if draft.inputs.isSome then none else some { draft with inputs := some ids }
  | .other key x => some { draft with others := draft.others ++ [(key, x)] }

theorem regular_entryOf (key : String) : Regular (Closes (.outside 0)) (entryOf key) := by
  unfold entryOf
  split
  · exact (regular_afterColon regular_nodeId).map Entry.id
  split
  · exact (regular_afterColon regular_domain).map Entry.domain
  split
  · exact (regular_afterColon (regular_listOf regular_nodeId)).map Entry.inputs
  · exact (regular_afterColon (regular_value valueRoom)).map (Entry.other key)

/-- The value after a colon is made something out of. -/
theorem map_afterColon_eq_ok {α β : Type} {reader : Reader α} {f : α → β} {text rest : List Char}
    {b : β} :
    (afterColon reader text >>= fun read => .ok (f read.1, read.2)) = .ok (b, rest) ↔
      ∃ a, afterColon reader text = .ok (a, rest) ∧ f a = b := by
  rw [bind_eq_ok]
  constructor
  · rintro ⟨⟨a, rest⟩, ha, ⟨⟩⟩
    exact ⟨a, ha, rfl⟩
  · rintro ⟨a, ha, rfl⟩
    exact ⟨(a, rest), ha, rfl⟩

section Fields

variable {α σ ε : Type} {reader : Reader α} (add : σ → ε → Option σ) {state state' : σ}
  {text rest : List Char}

/-- To read a member and set it in the state is to read an entry and to add it. -/
theorem adds_field (mk : α → ε) (set : α → σ) (same : ∀ a, add state (mk a) = some (set a)) :
    (do
      let (a, rest) ← reader (← colon text)
      return (set a, rest)) = .ok (state', rest) ↔
      ∃ e, (afterColon reader text >>= fun read => .ok (mk read.1, read.2)) = .ok (e, rest) ∧
        add state e = some state' := by
  have read_eq : (do
      let (a, rest) ← reader (← colon text)
      return (set a, rest)) =
        afterColon reader text >>= fun read => .ok (set read.1, read.2) := by
    rw [afterColon, bind_assoc]
    rfl
  rw [read_eq, map_afterColon_eq_ok]
  simp only [map_afterColon_eq_ok]
  constructor
  · rintro ⟨a, ha, rfl⟩
    exact ⟨mk a, ⟨a, ha, rfl⟩, same a⟩
  · rintro ⟨_, ⟨a, ha, rfl⟩, added⟩
    exact ⟨a, ha, Option.some.inj ((same a).symm.trans added)⟩

/-- A member that is set once. -/
theorem adds_field_once {known : Bool} {fault : Malformed} (mk : α → ε) (set : α → σ)
    (same : ∀ a, add state (mk a) = if known then none else some (set a)) :
    (if known then .error fault else do
        let (a, rest) ← reader (← colon text)
        return (set a, rest)) = .ok (state', rest) ↔
      ∃ e, (afterColon reader text >>= fun read => .ok (mk read.1, read.2)) = .ok (e, rest) ∧
        add state e = some state' := by
  cases known with
  | false => exact adds_field add mk set same
  | true =>
    simp only [map_afterColon_eq_ok]
    constructor
    · rintro ⟨⟩
    · rintro ⟨_, ⟨a, _, rfl⟩, added⟩
      cases (same a).symm.trans added

end Fields

theorem adds_nodeMember : Adds nodeMember entryOf Draft.add := by
  intro draft key text draft' rest
  unfold nodeMember entryOf
  by_cases id : key = "id"
  · rw [if_pos id, if_pos id]
    exact adds_field_once Draft.add .id (fun id => { draft with id := some id }) fun _ => rfl
  rw [if_neg id, if_neg id]
  by_cases domain : key = "domain"
  · rw [if_pos domain, if_pos domain]
    exact adds_field_once Draft.add .domain (fun d => { draft with domain := some d }) fun _ => rfl
  rw [if_neg domain, if_neg domain]
  by_cases inputs : key = "inputs"
  · rw [if_pos inputs, if_pos inputs]
    exact adds_field_once Draft.add .inputs (fun ids => { draft with inputs := some ids })
      fun _ => rfl
  rw [if_neg inputs, if_neg inputs]
  exact adds_field Draft.add (.other key)
    (fun x => { draft with others := draft.others ++ [(key, x)] }) fun _ => rfl

/-- What the entries of a node make out of one draft of it is another one. -/
@[mk_iff]
structure Gathers (draft : Draft) (es : List Entry) (draft' : Draft) : Prop where
  id : draft.id.toList ++ es.filterMap Entry.id? = draft'.id.toList
  domain : draft.domain.toList ++ es.filterMap Entry.domain? = draft'.domain.toList
  inputs : draft.inputs.toList ++ es.filterMap Entry.inputs? = draft'.inputs.toList
  others : draft.others ++ es.filterMap Entry.other? = draft'.others

theorem toList_injective {α : Type} {o o' : Option α} (h : o.toList = o'.toList) : o = o' := by
  cases o <;> cases o' <;> simp_all

/-- What is entered once is entered where nothing was. -/
theorem toList_append_cons {α : Type} {o o' : Option α} {a : α} {l : List α} :
    o.toList ++ a :: l = o'.toList ↔ o = none ∧ (some a).toList ++ l = o'.toList := by
  cases o <;> cases o' <;> simp

theorem gathers_nil {draft draft' : Draft} : Gathers draft [] draft' ↔ draft = draft' := by
  constructor
  · rintro ⟨id, domain, inputs, others⟩
    obtain ⟨i, d, is, os⟩ := draft
    simp only [List.filterMap_nil, List.append_nil] at id domain inputs others
    rw [toList_injective id, toList_injective domain, toList_injective inputs, others]
  · rintro rfl
    exact ⟨by simp, by simp, by simp, by simp⟩

theorem gathers_cons {draft draft' : Draft} {e : Entry} {es : List Entry} :
    Gathers draft (e :: es) draft' ↔ ∃ between, draft.add e = some between ∧
      Gathers between es draft' := by
  cases e with
  | id i =>
    simp only [gathers_iff, List.filterMap_cons, Entry.id?, Entry.domain?, Entry.inputs?,
      Entry.other?, toList_append_cons, Draft.add]
    cases draft.id <;> simp
  | domain d =>
    simp only [gathers_iff, List.filterMap_cons, Entry.id?, Entry.domain?, Entry.inputs?,
      Entry.other?, toList_append_cons, Draft.add]
    cases draft.domain <;> simp
  | inputs ids =>
    simp only [gathers_iff, List.filterMap_cons, Entry.id?, Entry.domain?, Entry.inputs?,
      Entry.other?, toList_append_cons, Draft.add]
    cases draft.inputs <;> simp
  | other key x =>
    simp [gathers_iff, List.filterMap_cons, Entry.id?, Entry.domain?, Entry.inputs?, Entry.other?,
      Draft.add]

/-- Entries are added one after the other: the id, the domain and the inputs at most once each. -/
theorem foldlM_add_eq_some {draft draft' : Draft} {es : List Entry} :
    es.foldlM Draft.add draft = some draft' ↔ Gathers draft es draft' := by
  induction es generalizing draft with
  | nil => rw [gathers_nil, List.foldlM_nil, Option.pure_def, Option.some.injEq]
  | cons e es ih =>
    rw [foldlM_cons_eq_some, gathers_cons]
    simp only [ih]

/-- The order of the entries counts for nothing but the order of what is set aside. -/
theorem Gathers.of_perm {draft draft' : Draft} {es es' : List Entry} (perm : es.Perm es')
    (h : Gathers draft es draft') :
    ∃ others, draft'.others.Perm others ∧ Gathers draft es' { draft' with others } := by
  have once {α : Type} {o o' : Option α} {l l' : List α} (perm : l.Perm l')
      (h : o.toList ++ l = o'.toList) : o.toList ++ l' = o'.toList := by
    have short : (o.toList ++ l').Perm o'.toList := h ▸ (perm.symm.append_left o.toList)
    cases o' with
    | none => exact List.perm_nil.mp short
    | some a => exact List.perm_singleton.mp short
  refine ⟨draft.others ++ es'.filterMap Entry.other?, ?_, ?_⟩
  · rw [← h.others]
    exact (perm.filterMap Entry.other?).append_left draft.others
  · exact ⟨once (perm.filterMap _) h.id, once (perm.filterMap _) h.domain,
      once (perm.filterMap _) h.inputs, rfl⟩

/-- A node does not depend on the order of what was set aside. -/
theorem finish_of_perm {draft : Draft} {others : List (String × Value)} {n : Node}
    (perm : draft.others.Perm others) (h : draft.finish = .ok n) :
    Draft.finish { draft with others } = .ok n := by
  unfold Draft.finish at h ⊢
  dsimp only at h ⊢
  split at h
  · cases h
  · rw [bind_eq_ok] at h
    obtain ⟨kind, hk, h⟩ := h
    exact bind_eq_ok.mpr ⟨kind, kindOf_of_perm perm hk, h⟩

/-- A node is an object whose entries make a draft that can be finished. There is at least one, the
id. -/
theorem node_eq_ok_iff {text rest : List Char} {n : Node} :
    node text = .ok (n, rest) ↔ ∃ inside es draft, skipBlanks text = '\x7b' :: inside ∧
      Run '\x7d' (keyed entryOf) (',' :: inside) es rest ∧
        Gathers ⟨none, none, none, []⟩ es draft ∧ draft.finish = .ok n := by
  have read_members {inside rest : List Char} {draft : Draft} :
      members nodeMember ⟨none, none, none, []⟩ inside = .ok (draft, rest) ↔ _ :=
    members_eq_ok_iff adds_nodeMember regular_entryOf
  simp only [foldlM_add_eq_some] at read_members
  unfold node
  constructor
  · intro read
    split at read
    · cases read
    · rename_i inside opened
      rw [bind_eq_ok] at read
      obtain ⟨⟨draft, between⟩, hm, read⟩ := read
      rw [bind_eq_ok] at read
      obtain ⟨n, finished, read⟩ := read
      cases read
      obtain ⟨es, ⟨rfl, closed⟩ | run, gathers⟩ := read_members.mp hm
      · cases gathers_nil.mp gathers
        cases finished
      · exact ⟨inside, es, draft, opened, run, gathers, finished⟩
    · cases read
  · rintro ⟨inside, es, draft, opened, run, gathers, finished⟩
    rw [opened]
    exact bind_eq_ok.mpr ⟨(draft, rest), read_members.mpr ⟨es, .inr run, gathers⟩,
      bind_eq_ok.mpr ⟨n, finished, rfl⟩⟩

theorem regular_node : Regular (Closes (.outside 0)) node := by
  refine regular_of_skipBlanks (fun text => by simp only [node, skipBlanks_skipBlanks])
    (fun c text n rest solid read => ?_) (fun read h => by cases h)
  rw [node, skipBlanks_cons solid] at read
  split at read
  · cases read
  · rename_i e
    cases e
    have inside := (regular_members adds_nodeMember regular_entryOf ⟨none, none, none, []⟩).andThen
      Draft.finish
    exact (inside _ _ _ read).cons (fun _ => rfl) fun u h => h.cons rfl
  · cases read

/-- What a member of a document gives: the nodes, or nothing. -/
def documentEntry (key : String) : Reader (Option (List Node)) :=
  if key = "nodes" then
    fun text => afterColon (listOf node) text >>= fun read => .ok (some read.1, read.2)
  else fun text => afterColon (passing skipValue) text >>= fun read => .ok (none, read.2)

/-- The nodes are given once. -/
def addNodes (nodes : Option (List Node)) : Option (List Node) → Option (Option (List Node))
  | some ns => if nodes.isSome then none else some (some ns)
  | none => some nodes

theorem regular_documentEntry (key : String) :
    Regular (Closes (.outside 0)) (documentEntry key) := by
  unfold documentEntry
  split
  · exact (regular_afterColon (regular_listOf regular_node)).map some
  · exact (regular_afterColon regular_skipValue).map fun _ => none

theorem adds_graphMember : Adds graphMember documentEntry addNodes := by
  intro nodes key text nodes' rest
  unfold graphMember documentEntry
  by_cases key : key = "nodes"
  · rw [if_pos key, if_pos key]
    exact adds_field_once addNodes some some fun _ => rfl
  · rw [if_neg key, if_neg key]
    have skip_eq : (do
        let rest ← skipValue (← colon text)
        return (nodes, rest)) = (do
        let (_, rest) ← passing skipValue (← colon text)
        return (nodes, rest)) := by
      simp only [passing, bind_assoc]
      rfl
    rw [skip_eq]
    exact adds_field addNodes (fun _ => none) (fun _ => nodes) fun _ => rfl

end NodeGraph.Document
