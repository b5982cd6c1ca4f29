import Mathlib.Data.List.Pairwise
import TagTemplate.Proofs.Document.Planting

/-! # One preparation for each node

Preparation takes nodes from a stack.  At an open node the steps of the pipeline take their turns,
each in the document as the turns before have left it; a closed node is passed.  Then the nodes held
come on the stack, with their holder as the parent.  Steps beyond those known from the start may
look at the whole document, but change the node in hand alone.

* `Overseer`: a step that sees the document, and `Serves`: the turns at one node.
* `oversee`: the walk, in a number of rounds.
* `ComesFrom`: the parent of a node in a tree.
* `Course`: what a walk does to the nodes that it meets, and to the others.
* `oversee_once`: below a node each open node is prepared once, and a second walk changes
  nothing.  On documents that hold earlier nodes only, the walk is `prepare`. -/

namespace TagTemplate

/-! ### Steps that see the document -/

/-- A step of preparation that sees the whole document and changes the node in hand. -/
structure Overseer where
  supports : Node → Bool
  prepare : Surroundings → Option Nat → Document → Nat → Node

/-- The step keeps what the node holds, and leaves it open or closed. -/
structure Overseer.IsTame (o : Overseer) : Prop where
  children (around : Surroundings) (parent : Option Nat) (d : Document) (id : Nat) :
    (o.prepare around parent d id).children = (d.node id).children
  closed (around : Surroundings) (parent : Option Nat) (d : Document) (id : Nat) :
    (o.prepare around parent d id).closed = (d.node id).closed

/-- A step that sees nothing of the document but the node. -/
def Preparer.overseer (p : Preparer) : Overseer where
  supports := p.supports
  prepare around parent d id := p.prepare around parent (d.node id)

theorem Preparer.IsLocal.isTame {p : Preparer} (h : p.IsLocal) : p.overseer.IsTame := by
  have hkeeps (around : Surroundings) (parent : Option Nat) (d : Document) (id : Nat) :
      (p.overseer.prepare around parent d id).content = (d.node id).content ∧
        (p.overseer.prepare around parent d id).closed = (d.node id).closed := by
    have heq : p.overseer.prepare around parent d id = p.prepare around parent (d.node id) := rfl
    rw [heq, h.keeps]
    exact ⟨rfl, rfl⟩
  exact ⟨fun around parent d id => by rw [Node.children, (hkeeps around parent d id).1]; rfl,
    fun around parent d id => (hkeeps around parent d id).2⟩

/-- The steps known from the start, followed by others. -/
def Overseer.pipeline (more : List Overseer) : List Overseer :=
  Preparer.builtins.map Preparer.overseer ++ more

theorem Overseer.isTame_of_mem_pipeline {more : List Overseer} (hmore : ∀ o ∈ more, o.IsTame) :
    ∀ o ∈ pipeline more, o.IsTame := by
  intro o ho
  rcases List.mem_append.mp ho with ho | ho
  · obtain ⟨p, hp, rfl⟩ := List.mem_map.mp ho
    exact (Preparer.isLocal_of_mem_builtins hp).isTame
  · exact hmore o ho

namespace Document

/-- The document with a node replaced. -/
def put (d : Document) (id : Nat) (n : Node) : Document :=
  d.update id fun _ => n

@[simp] theorem size_put (d : Document) (id : Nat) (n : Node) : (d.put id n).size = d.size :=
  size_update d id _

theorem get?_put_of_ne (d : Document) {id i : Nat} (n : Node) (h : i ≠ id) :
    (d.put id n).get? i = d.get? i := by
  rw [put, get?_update, if_neg (Ne.symm h)]

theorem node_put (d : Document) {id : Nat} (n : Node) (hid : id < d.size) :
    (d.put id n).node id = n := by
  rw [put, node_update d id _ id hid, if_pos rfl]

theorem node_congr {d e : Document} {i : Nat} (h : d.get? i = e.get? i) : d.node i = e.node i :=
  congrArg (fun x => x.getD (.root [] ⟨0, 0⟩)) h

theorem get?_eq_some_node {d : Document} {i : Nat} (h : i < d.size) :
    d.get? i = some (d.node i) := by
  have hget : d.get? i = some d.nodes[i] := Array.getElem?_eq_getElem h
  rw [node, hget, Option.getD_some]

end Document

/-! ### The turns at one node -/

/-- The steps take their turns at the node `id`, each once and in their order, if they support it as
they find it: the steps that did, and the document after them. -/
inductive Serves (around : Surroundings) (parent : Option Nat) (id : Nat) :
    Document → List Overseer → List Overseer → Document → Prop
  | done (d : Document) : Serves around parent id d [] [] d
  | serves {d e : Document} {o : Overseer} {os served : List Overseer}
    (h : o.supports (d.node id) = true)
    (hrest : Serves around parent id (d.put id (o.prepare around parent d id)) os served e) :
    Serves around parent id d (o :: os) (o :: served) e
  | passes {d e : Document} {o : Overseer} {os served : List Overseer}
    (h : o.supports (d.node id) = false)
    (hrest : Serves around parent id d os served e) :
    Serves around parent id d (o :: os) served e

/-- The turns of the steps at a node: the document after them, and the steps that took theirs. -/
def turns (around : Surroundings) (parent : Option Nat) (id : Nat) :
    List Overseer → Document → Document × List Overseer
  | [], d => (d, [])
  | o :: os, d =>
    if o.supports (d.node id) then
      let (e, served) := turns around parent id os (d.put id (o.prepare around parent d id))
      (e, o :: served)
    else turns around parent id os d

theorem serves_turns (around : Surroundings) (parent : Option Nat) (id : Nat)
    (os : List Overseer) (d : Document) :
    Serves around parent id d os (turns around parent id os d).2
      (turns around parent id os d).1 := by
  induction os generalizing d with
  | nil => exact .done d
  | cons o os ih =>
      unfold turns
      split
      · next h => exact .serves h (ih _)
      · next h => exact .passes (Bool.not_eq_true _ ▸ h) (ih d)

namespace Serves

variable {around : Surroundings} {parent : Option Nat} {id : Nat} {d e : Document}
  {os served : List Overseer}

theorem get?_of_ne (h : Serves around parent id d os served e) {i : Nat} (hi : i ≠ id) :
    e.get? i = d.get? i := by
  induction h with
  | done => rfl
  | serves _ _ ih => rw [ih, Document.get?_put_of_ne _ _ hi]
  | passes _ _ ih => exact ih

theorem size_eq (h : Serves around parent id d os served e) : e.size = d.size := by
  induction h with
  | done => rfl
  | serves _ _ ih => rw [ih, Document.size_put]
  | passes _ _ ih => exact ih

theorem children_eq (h : Serves around parent id d os served e) (hos : ∀ o ∈ os, o.IsTame)
    (hid : id < d.size) : (e.node id).children = (d.node id).children := by
  induction h with
  | done => rfl
  | serves _ _ ih =>
      obtain ⟨ho, hos⟩ := List.forall_mem_cons.mp hos
      rw [ih hos (by rwa [Document.size_put]), Document.node_put _ _ hid, ho.children]
  | passes _ _ ih => exact ih (List.forall_mem_cons.mp hos).2 hid

theorem node_preparedBy {ps : List Preparer}
    (h : Serves around parent id d (ps.map Preparer.overseer) served e) (hid : id < d.size) :
    e.node id = (d.node id).preparedBy ps around parent := by
  induction ps generalizing d served with
  | nil =>
      cases h
      rfl
  | cons p ps ih =>
      have hcons (n : Node) : n.preparedBy (p :: ps) around parent =
          Node.preparedBy ps around parent
            (if p.supports n then p.prepare around parent n else n) := rfl
      rw [hcons]
      cases h with
      | serves hsupports hrest =>
          rw [ih hrest (by rwa [Document.size_put]), Document.node_put _ _ hid,
            if_pos (show p.supports (d.node id) = true from hsupports)]
          rfl
      | passes hsupports hrest =>
          have hnot : p.supports (d.node id) = false := hsupports
          rw [ih hrest hid, hnot, if_neg Bool.false_ne_true]

end Serves

namespace Document

/-! ### The walk -/

/-- A node taken from the stack: the parent that came with it, the document in which it was found,
and the steps that took their turns at it. -/
structure Visit where
  node : Nat
  parent : Option Nat
  sight : Document
  served : List Overseer

/-- The document with a node prepared and closed, unless it is closed, and the steps that took their
turns. -/
def attend (os : List Overseer) (around : Surroundings) (d : Document) (id : Nat)
    (parent : Option Nat) : Document × List Overseer :=
  if (d.node id).closed then (d, [])
  else
    let (e, served) := turns around parent id os d
    (e.update id fun n => { n with closed := true }, served)

/-- Takes the top of a stack of nodes with their parents, attends to it and puts the nodes that it
holds in its place, until the stack is empty: the document and the visits, or none if nodes are left
after so many rounds. -/
def oversee (os : List Overseer) (around : Surroundings) :
    Nat → List (Nat × Option Nat) → Document → Option (Document × List Visit)
  | _, [], d => some (d, [])
  | 0, _ :: _, _ => none
  | n + 1, (id, parent) :: rest, d =>
    let (e, served) := d.attend os around id parent
    (oversee os around n ((e.node id).children.map (·, some id) ++ rest) e).map
      fun (e', visits) => (e', ⟨id, parent, d, served⟩ :: visits)

section attend
variable {os : List Overseer} {d : Document} {id : Nat} (around : Surroundings)
  (parent : Option Nat)

theorem attend_of_closed (os : List Overseer) (h : (d.node id).closed = true) :
    d.attend os around id parent = (d, []) :=
  if_pos h

theorem attend_of_open (os : List Overseer) (h : (d.node id).closed = false) :
    ∃ e, Serves around parent id d os (d.attend os around id parent).2 e ∧
      (d.attend os around id parent).1 = e.update id fun n => { n with closed := true } := by
  unfold attend
  rw [h, if_neg Bool.false_ne_true]
  exact ⟨_, serves_turns around parent id os d, rfl⟩

theorem attend_size : (d.attend os around id parent).1.size = d.size := by
  cases h : (d.node id).closed with
  | true => rw [attend_of_closed around parent os h]
  | false =>
      obtain ⟨e, hserves, heq⟩ := attend_of_open around parent os h
      rw [heq, size_update, hserves.size_eq]

theorem attend_get?_of_ne {i : Nat} (hi : i ≠ id) :
    (d.attend os around id parent).1.get? i = d.get? i := by
  cases h : (d.node id).closed with
  | true => rw [attend_of_closed around parent os h]
  | false =>
      obtain ⟨e, hserves, heq⟩ := attend_of_open around parent os h
      rw [heq, get?_update, if_neg (Ne.symm hi), hserves.get?_of_ne hi]

theorem attend_children (hos : ∀ o ∈ os, o.IsTame) (hid : id < d.size) (i : Nat) :
    ((d.attend os around id parent).1.node i).children = (d.node i).children := by
  rcases eq_or_ne i id with rfl | hi
  · cases h : (d.node i).closed with
    | true => rw [attend_of_closed around parent os h]
    | false =>
        obtain ⟨e, hserves, heq⟩ := attend_of_open around parent os h
        rw [heq, node_update e i _ i (by rwa [hserves.size_eq]), if_pos rfl,
          ← hserves.children_eq hos hid]
        rfl
  · rw [node_congr (attend_get?_of_ne around parent hi)]

end attend

/-! ### Trees on a stack -/

/-- Walks through documents whose nodes hold the same are the same. -/
theorem unstack_congr {d e : Document} (h : ∀ i, (e.node i).children = (d.node i).children)
    (n : Nat) (ids : List Nat) : e.unstack n ids = d.unstack n ids := by
  induction n generalizing ids with
  | zero => cases ids <;> rfl
  | succ n ih =>
      cases ids with
      | nil => rfl
      | cons id rest => rw [unstack, unstack, h, ih]

theorem unstack_eq_nil {d : Document} {n : Nat} {ids : List Nat}
    (h : d.unstack n ids = some []) : ids = [] := by
  cases ids with
  | nil => rfl
  | cons id rest =>
      cases n with
      | zero => cases h
      | succ n =>
          obtain ⟨order, _, heq⟩ := Option.map_eq_some_iff.mp h
          cases heq

/-- The node taken first is the top of the stack, and those that it holds come on the stack. -/
theorem unstack_eq_cons {d : Document} {n id : Nat} {ids order : List Nat}
    (h : d.unstack n ids = some (id :: order)) :
    ∃ m rest, n = m + 1 ∧ ids = id :: rest ∧
      d.unstack m ((d.node id).children ++ rest) = some order := by
  cases ids with
  | nil =>
      rw [unstack] at h
      cases h
  | cons top rest =>
      cases n with
      | zero => cases h
      | succ n =>
          obtain ⟨order, hrest, heq⟩ := Option.map_eq_some_iff.mp h
          cases heq
          exact ⟨n, rest, rfl, rfl, hrest⟩

theorem unstack_add {d : Document} {n : Nat} {ids order : List Nat}
    (h : d.unstack n ids = some order) (k : Nat) : d.unstack (n + k) ids = some order := by
  induction order generalizing n ids with
  | nil => rw [unstack_eq_nil h, unstack]
  | cons id order ih =>
      obtain ⟨m, rest, rfl, rfl, hrest⟩ := unstack_eq_cons h
      rw [Nat.add_right_comm, unstack, ih hrest, Option.map_some]

/-- The nodes taken from a stack are those put on it: at the beginning, or by their holder. -/
theorem perm_unstack {d : Document} {n : Nat} {ids order : List Nat}
    (h : d.unstack n ids = some order) :
    order.Perm (ids ++ order.flatMap fun i => (d.node i).children) := by
  induction order generalizing n ids with
  | nil =>
      rw [unstack_eq_nil h]
      exact .nil
  | cons id order ih =>
      obtain ⟨m, rest, rfl, rfl, hrest⟩ := unstack_eq_cons h
      rw [List.flatMap_cons, List.cons_append, ← List.append_assoc]
      exact ((ih hrest).trans (List.perm_append_comm.append_right _)).cons id

/-- In a tree the root is held by no node, and every other node by one. -/
theorem holder_unique {d : Document} {n root : Nat} {order : List Nat}
    (hwalk : d.unstack n [root] = some order) (hnodup : order.Nodup) :
    (∀ p ∈ order, root ∉ (d.node p).children) ∧
      ∀ p ∈ order, ∀ q ∈ order, ∀ c ∈ (d.node p).children, c ∈ (d.node q).children → q = p := by
  have hall := (perm_unstack hwalk).nodup_iff.mp hnodup
  obtain ⟨hroot, hheld⟩ := List.nodup_cons.mp hall
  refine ⟨fun p hp hmem => hroot (List.mem_flatMap.mpr ⟨p, hp, hmem⟩), ?_⟩
  intro p hp q hq c hcp hcq
  by_contra hne
  have hdisjoint := (List.nodup_flatMap.mp hheld).2
  have : Std.Symm (Function.onFun List.Disjoint fun i => (d.node i).children) :=
    ⟨fun _ _ h _ ha hb => h hb ha⟩
  exact hdisjoint.forall hp hq (Ne.symm hne) hcp hcq

/-- The parent with which a walk from `root` comes to the node `i`: at the root, which no node of
the walk holds, the parent given to it, and elsewhere the one node of the walk that holds `i`. -/
def ComesFrom (d : Document) (order : List Nat) (root : Nat) (parent : Option Nat) (i : Nat)
    (q : Option Nat) : Prop :=
  i = root ∧ q = parent ∧ (∀ p ∈ order, root ∉ (d.node p).children) ∨
    ∃ p ∈ order, i ∈ (d.node p).children ∧ q = some p ∧
      ∀ p' ∈ order, i ∈ (d.node p').children → p' = p

theorem ComesFrom.unique {d : Document} {order : List Nat} {root i : Nat}
    {parent q q' : Option Nat} (h : d.ComesFrom order root parent i q)
    (h' : d.ComesFrom order root parent i q') : q = q' := by
  rcases h with ⟨rfl, rfl, hroot⟩ | ⟨p, hp, hheld, rfl, _⟩
  · rcases h' with ⟨_, rfl, _⟩ | ⟨p', hp', hheld', _⟩
    · rfl
    · exact absurd hheld' (hroot p' hp')
  · rcases h' with ⟨rfl, _, hroot⟩ | ⟨p', _, _, rfl, hunique⟩
    · exact absurd hheld (hroot p hp)
    · rw [hunique p hp hheld]

theorem comesFrom_of_held {d : Document} {n root i : Nat} {order : List Nat}
    {parent q : Option Nat} (hwalk : d.unstack n [root] = some order) (hnodup : order.Nodup)
    (h : i = root ∧ q = parent ∨ ∃ p ∈ order, i ∈ (d.node p).children ∧ q = some p) :
    d.ComesFrom order root parent i q := by
  obtain ⟨hroot, hholder⟩ := holder_unique hwalk hnodup
  rcases h with ⟨hi, hq⟩ | ⟨p, hp, hheld, hq⟩
  · exact .inl ⟨hi, hq, hroot⟩
  · exact .inr ⟨p, hp, hheld, hq, fun p' hp' => hholder p hp p' hp' i hheld⟩

/-! ### What a walk does -/

/-- What the visits of a walk do to the document `d`, which is `d'` in the end.  Each visit finds
the nodes visited before as they are in the end, and all others as they were.  The steps take their
turns at an open node, which is closed then; a closed node is left as it is, and so are the nodes
that are not visited.  All nodes hold what they held. -/
structure Course (os : List Overseer) (around : Surroundings) (d d' : Document)
    (visits : List Visit) : Prop where
  size : d'.size = d.size
  children : ∀ i, (d'.node i).children = (d.node i).children
  sight : ∀ before v after, visits = before ++ v :: after → ∀ i,
    v.sight.get? i = if i ∈ before.map (·.node) then d'.get? i else d.get? i
  opened : ∀ v ∈ visits, (d.node v.node).closed = false →
    ∃ e, Serves around v.parent v.node v.sight os v.served e ∧
      d'.node v.node = { e.node v.node with closed := true }
  passed : ∀ v ∈ visits, (d.node v.node).closed = true →
    v.served = [] ∧ d'.node v.node = d.node v.node
  outside : ∀ i, i ∉ visits.map (·.node) → d'.get? i = d.get? i

section walk
variable {os : List Overseer} {around : Surroundings} {d : Document} {n : Nat}
  {stack : List (Nat × Option Nat)} {order : List Nat}

theorem course_nil : Course os around d d [] where
  size := rfl
  children _ := rfl
  sight before v after h := by
    cases before <;> cases h
  opened _ hv := nomatch hv
  passed _ hv := nomatch hv
  outside _ _ := rfl

theorem Course.cons {d' : Document} {id : Nat} {parent : Option Nat} {visits : List Visit}
    (hos : ∀ o ∈ os, o.IsTame) (hid : id < d.size) (hnew : id ∉ visits.map (·.node))
    (h : Course os around (d.attend os around id parent).1 d' visits) :
    Course os around d d' (⟨id, parent, d, (d.attend os around id parent).2⟩ :: visits) := by
  have hlast : d'.get? id = (d.attend os around id parent).1.get? id := h.outside id hnew
  have hbefore {v : Visit} (hv : v ∈ visits) :
      (d.attend os around id parent).1.node v.node = d.node v.node := by
    refine node_congr (attend_get?_of_ne around parent fun heq => hnew ?_)
    exact List.mem_map.mpr ⟨v, hv, heq⟩
  refine ⟨h.size.trans (attend_size around parent),
    fun i => (h.children i).trans (attend_children around parent hos hid i),
    fun before v after hsplit i => ?_, ?_, ?_, fun i hi => ?_⟩
  · cases before with
    | nil =>
        cases hsplit
        rfl
    | cons u before =>
        cases hsplit
        rw [h.sight before v after rfl i]
        simp only [List.map_cons, List.mem_cons]
        rcases eq_or_ne i id with rfl | hi
        · -- the node visited first does not come again
          have hnot : i ∉ before.map (·.node) := fun hmem => hnew (by simp [hmem])
          rw [if_neg hnot, if_pos (.inl rfl), hlast]
        · rw [attend_get?_of_ne around parent hi]
          simp only [hi, false_or]
  · refine List.forall_mem_cons.mpr ⟨fun hopen => ?_, fun v hv hopen => ?_⟩
    · obtain ⟨e, hserves, heq⟩ := attend_of_open around parent os hopen
      refine ⟨e, hserves, ?_⟩
      rw [node_congr hlast, heq, node_update e id _ id (by rwa [hserves.size_eq]), if_pos rfl]
    · exact h.opened v hv (by rwa [hbefore hv])
  · refine List.forall_mem_cons.mpr ⟨fun hclosed => ?_, fun v hv hclosed => ?_⟩
    · have hattend := attend_of_closed around parent os hclosed
      exact ⟨congrArg Prod.snd hattend, (node_congr hlast).trans (by rw [hattend])⟩
    · rw [← hbefore hv] at hclosed ⊢
      exact h.passed v hv hclosed
  · rw [List.map_cons, List.mem_cons, not_or] at hi
    rw [h.outside i hi.2, attend_get?_of_ne around parent hi.1]

theorem map_fst_stack (id : Nat) (kids : List Nat) (rest : List (Nat × Option Nat)) :
    ((kids.map (·, some id)) ++ rest).map (·.1) = kids ++ rest.map (·.1) := by
  rw [List.map_append, List.map_map]
  simp only [Function.comp_def, List.map_id']

theorem exists_course (around : Surroundings) (hos : ∀ o ∈ os, o.IsTame)
    (hwalk : d.unstack n (stack.map (·.1)) = some order) (hnodup : order.Nodup)
    (hin : ∀ i ∈ order, i < d.size) :
    ∃ d' visits, oversee os around n stack d = some (d', visits) ∧
      visits.map (·.node) = order ∧ Course os around d d' visits ∧
      ∀ v ∈ visits, (v.node, v.parent) ∈ stack ∨
        ∃ p ∈ order, v.node ∈ (d.node p).children ∧ v.parent = some p := by
  induction order generalizing n stack d with
  | nil =>
      rw [List.map_eq_nil_iff.mp (unstack_eq_nil hwalk)]
      exact ⟨d, [], by rw [oversee], rfl, course_nil, fun _ hv => nomatch hv⟩
  | cons id order ih =>
      obtain ⟨m, _, rfl, hids, hrest⟩ := unstack_eq_cons hwalk
      obtain ⟨⟨id, parent⟩, rest, rfl, rfl, rfl⟩ := List.map_eq_cons_iff.mp hids
      dsimp only at hrest hnodup hin ⊢
      obtain ⟨hnew, hnodup⟩ := List.nodup_cons.mp hnodup
      obtain ⟨hid, hin⟩ := List.forall_mem_cons.mp hin
      have hkids := attend_children around parent hos hid
      rw [← map_fst_stack id, ← unstack_congr hkids, ← hkids] at hrest
      obtain ⟨d', visits, hrun, horder, hcourse, hparents⟩ :=
        ih hrest hnodup fun i hi => by rw [attend_size]; exact hin i hi
      refine ⟨d', _, ?_, ?_, hcourse.cons hos hid (by rwa [horder]), ?_⟩
      · rw [oversee]
        dsimp only
        rw [hrun]
        rfl
      · rw [List.map_cons, horder]
      · refine List.forall_mem_cons.mpr ⟨.inl List.mem_cons_self, fun v hv => ?_⟩
        rcases hparents v hv with hmem | ⟨p, hp, hheld, hparent⟩
        · rcases List.mem_append.mp hmem with hmem | hmem
          · obtain ⟨c, hc, heq⟩ := List.mem_map.mp hmem
            obtain ⟨rfl, hparent⟩ := Prod.mk.injEq _ _ _ _ ▸ heq
            exact .inr ⟨id, List.mem_cons_self, by rwa [hkids] at hc, hparent.symm⟩
          · exact .inl (List.mem_cons_of_mem _ hmem)
        · exact .inr ⟨p, List.mem_cons_of_mem _ hp, by rwa [hkids] at hheld, hparent⟩

/-- A walk through closed nodes changes nothing, whatever the steps. -/
theorem oversee_of_closed (hwalk : d.unstack n (stack.map (·.1)) = some order)
    (hclosed : ∀ i ∈ order, (d.node i).closed = true) :
    ∃ visits, oversee os around n stack d = some (d, visits) ∧
      ∀ v ∈ visits, v.served = [] := by
  induction order generalizing n stack with
  | nil =>
      rw [List.map_eq_nil_iff.mp (unstack_eq_nil hwalk)]
      exact ⟨[], by rw [oversee], fun _ hv => nomatch hv⟩
  | cons id order ih =>
      obtain ⟨m, _, rfl, hids, hrest⟩ := unstack_eq_cons hwalk
      obtain ⟨⟨id, parent⟩, rest, rfl, rfl, rfl⟩ := List.map_eq_cons_iff.mp hids
      dsimp only at hrest hclosed
      obtain ⟨hid, hclosed⟩ := List.forall_mem_cons.mp hclosed
      rw [← map_fst_stack id] at hrest
      obtain ⟨visits, hrun, hserved⟩ := ih hrest hclosed
      refine ⟨⟨id, parent, d, []⟩ :: visits, ?_, List.forall_mem_cons.mpr ⟨rfl, hserved⟩⟩
      rw [oversee, attend_of_closed around parent os hid]
      dsimp only
      rw [hrun]
      rfl

end walk

/-! ### Steps that see the node alone -/

theorem get?_visit_of_not_mem {g : Option Nat → Node → Node} {d : Document}
    {members : List (Nat × Option Nat)} {i : Nat} (hi : i ∉ members.map (·.1)) :
    (d.visit g members).get? i = d.get? i := by
  induction members generalizing d with
  | nil => rfl
  | cons e members ih =>
      rw [List.map_cons, List.mem_cons, not_or] at hi
      rw [visit, List.foldl_cons, ← visit, ih hi.2, get?_update, if_neg (Ne.symm hi.1)]

theorem get?_visit {g : Option Nat → Node → Node} {d : Document}
    {members : List (Nat × Option Nat)} (hnodup : (members.map (·.1)).Nodup) {i : Nat}
    {parent : Option Nat} (hi : (i, parent) ∈ members) :
    (d.visit g members).get? i = (d.get? i).map (g parent) := by
  induction members generalizing d with
  | nil => cases hi
  | cons e members ih =>
      rw [List.map_cons] at hnodup
      obtain ⟨hnew, hnodup⟩ := List.nodup_cons.mp hnodup
      rw [visit, List.foldl_cons, ← visit]
      rcases List.mem_cons.mp hi with rfl | hi
      · rw [get?_visit_of_not_mem hnew, get?_update, if_pos rfl]
      · have hne : e.1 ≠ i := fun heq => hnew (heq ▸ List.mem_map_of_mem hi)
        rw [ih hnodup hi, get?_update, if_neg hne]

theorem holder_of_mem_family {d : Document} {root : Nat} {parent : Option Nat} {i : Nat}
    {q : Option Nat} (h : (i, q) ∈ d.family parent root) :
    i = root ∧ q = parent ∨ ∃ p ∈ d.descendants root, i ∈ (d.node p).children ∧ q = some p := by
  induction root using Nat.strongRecOn generalizing parent with
  | ind root ih =>
      rw [family_of_children, List.mem_cons] at h
      rcases h with heq | h
      · cases heq
        exact .inl ⟨rfl, rfl⟩
      · obtain ⟨c, hc, h⟩ := List.mem_flatMap.mp h
        split at h
        · next hlt =>
          rcases ih c hlt h with ⟨rfl, rfl⟩ | ⟨p, hp, hheld, hq⟩
          · exact .inr ⟨root, mem_descendants_self d root, hc, rfl⟩
          · exact .inr ⟨p, descendants_of_child hc hlt hp, hheld, hq⟩
        · cases h

section course
variable {os : List Overseer} {around : Surroundings} {d d' : Document} {visits : List Visit}
  {v : Visit}

theorem Course.sight_get? (h : Course os around d d' visits)
    (hnodup : (visits.map (·.node)).Nodup) (hv : v ∈ visits) :
    v.sight.get? v.node = d.get? v.node := by
  obtain ⟨before, after, rfl⟩ := List.append_of_mem hv
  have hnew : v.node ∉ before.map (·.node) := by
    rw [List.map_append, List.map_cons, List.nodup_append'] at hnodup
    exact fun hmem => hnodup.2.2 hmem List.mem_cons_self
  rw [h.sight before v after rfl v.node, if_neg hnew]

theorem Course.closed (h : Course os around d d' visits) (hv : v ∈ visits) :
    (d'.node v.node).closed = true := by
  cases hclosed : (d.node v.node).closed with
  | true => rw [(h.passed v hv hclosed).2, hclosed]
  | false =>
      obtain ⟨e, _, hnode⟩ := h.opened v hv hclosed
      rw [hnode]

theorem Course.node_prepared {ps : List Preparer}
    (h : Course (ps.map Preparer.overseer) around d d' visits)
    (hnodup : (visits.map (·.node)).Nodup) (hv : v ∈ visits) (hin : v.node < d.size) :
    d'.node v.node = Node.prepared ps around v.parent (d.node v.node) := by
  unfold Node.prepared
  cases hclosed : (d.node v.node).closed with
  | true => exact (h.passed v hv hclosed).2
  | false =>
      obtain ⟨e, hserves, hnode⟩ := h.opened v hv hclosed
      have hsight := h.sight_get? hnodup hv
      have hsize : v.node < v.sight.size :=
        (Array.getElem?_eq_some_iff.mp (hsight.trans (get?_eq_some_node hin))).1
      rw [hnode, hserves.node_preparedBy hsize, node_congr hsight]
      rfl

/-- A walk of steps that see the node alone, through a family, does what `prepare` does. -/
theorem Course.eq_prepare {ps : List Preparer} {n root : Nat}
    (h : Course (ps.map Preparer.overseer) around d d' visits)
    (hwalk : d.unstack n [root] = some (d.descendants root))
    (hnodup : (d.descendants root).Nodup) (hin : ∀ i ∈ d.descendants root, i < d.size)
    (horder : visits.map (·.node) = d.descendants root)
    (hparents : ∀ v ∈ visits,
      d.ComesFrom (d.descendants root) root around.parent v.node v.parent) :
    d' = d.prepare ps root around := by
  have hmembers : (d.family around.parent root).map (·.1) = d.descendants root := by
    rw [map_fst_family d around.parent none, descendants]
  have hprepare : d.prepare ps root around =
      d.visit (Node.prepared ps around) (d.family around.parent root) := rfl
  rw [hprepare]
  refine ext_get? fun i => ?_
  by_cases hi : i ∈ d.descendants root
  · obtain ⟨v, hv, rfl⟩ : ∃ v ∈ visits, v.node = i := by
      rw [← horder] at hi
      exact List.mem_map.mp hi
    obtain ⟨q, hq⟩ : ∃ q, (v.node, q) ∈ d.family around.parent root := by
      rw [← hmembers] at hi
      obtain ⟨⟨i, q⟩, hq, rfl⟩ := List.mem_map.mp hi
      exact ⟨q, hq⟩
    -- both give the node the parent that holds it
    have hparent : q = v.parent :=
      (comesFrom_of_held hwalk hnodup (holder_of_mem_family hq)).unique (hparents v hv)
    have hsize := hin v.node hi
    rw [get?_visit (by rwa [hmembers]) hq, get?_eq_some_node hsize,
      get?_eq_some_node (by rwa [h.size]), hparent, Option.map_some]
    exact congrArg some (h.node_prepared (by rwa [horder]) hv hsize)
  · rw [get?_visit_of_not_mem (by rwa [hmembers])]
    exact h.outside i (by rwa [horder])

end course

/-! ### Every tree -/

/-- In a tree preparation visits the nodes once, each after its holder and those that stand before
it.  Each open node is served by the steps that support it, in their order, with its holder as the
parent, and is closed then; closed nodes and those outside the tree are left as they are.  A second
walk, with other steps and in other surroundings, changes nothing.  Where nodes hold earlier ones,
the nodes visited are the descendants, and steps that see the node alone do what `prepare` does. -/
theorem oversee_once {d : Document} {n root : Nat} {order : List Nat}
    (hwalk : d.unstack n [root] = some order) (hnodup : order.Nodup)
    (hin : ∀ i ∈ order, i < d.size) {more : List Overseer} (hmore : ∀ o ∈ more, o.IsTame)
    (around : Surroundings) :
    ∃ d' visits, oversee (Overseer.pipeline more) around n [(root, around.parent)] d =
        some (d', visits) ∧
      visits.map (·.node) = order ∧
      (∀ v ∈ visits, d.ComesFrom order root around.parent v.node v.parent) ∧
      Course (Overseer.pipeline more) around d d' visits ∧
      (∀ os' around', ∃ visits',
        oversee os' around' n [(root, around'.parent)] d' = some (d', visits') ∧
        ∀ v ∈ visits', v.served = []) ∧
      (d.Stacked 0 → order = d.descendants root ∧
        ∀ extra : List Preparer, more = extra.map Preparer.overseer →
          d' = d.prepare (Preparer.builtins ++ extra) root around) := by
  have hstack : d.unstack n ([(root, around.parent)].map (·.1)) = some order := hwalk
  obtain ⟨d', visits, hrun, horder, hcourse, hheld⟩ :=
    exists_course around (Overseer.isTame_of_mem_pipeline hmore) hstack hnodup hin
  have hparents : ∀ v ∈ visits, d.ComesFrom order root around.parent v.node v.parent := by
    intro v hv
    refine comesFrom_of_held hwalk hnodup ((hheld v hv).imp_left fun h => ?_)
    rw [List.mem_singleton] at h
    exact Prod.mk.injEq _ _ _ _ ▸ h
  refine ⟨d', visits, hrun, horder, hparents, hcourse, fun os' around' => ?_, fun hd => ?_⟩
  · have hagain : d'.unstack n ([(root, around'.parent)].map (·.1)) = some order := by
      rw [unstack_congr hcourse.children]
      exact hwalk
    refine oversee_of_closed hagain fun i hi => ?_
    rw [← horder] at hi
    obtain ⟨v, hv, rfl⟩ := List.mem_map.mp hi
    exact hcourse.closed hv
  · obtain rfl : order = d.descendants root := by
      have hfamily := unstack_add (hd.unstack_eq (Nat.zero_le root)) n
      rw [Nat.add_comm, unstack_add hwalk] at hfamily
      exact Option.some.inj hfamily
    refine ⟨rfl, fun extra hextra => ?_⟩
    have hpipeline : Overseer.pipeline more =
        (Preparer.builtins ++ extra).map Preparer.overseer := by
      rw [Overseer.pipeline, hextra, List.map_append]
    rw [hpipeline] at hcourse
    exact hcourse.eq_prepare hwalk hnodup hin horder hparents

/-- Gives a node the variables of its parent. -/
def heir : Overseer where
  supports _ := true
  prepare _ parent d id := { d.node id with
    scope := (d.node id).scope.extend (parent.elim ∅ fun p => (d.node p).scope) }

/-- A closed block with an open and a closed text, in an open root. -/
def halfClosed : Document where
  nodes := #[.literal "a" ⟨0, 1⟩, { Node.literal "b" ⟨1, 2⟩ with closed := true },
    { Node.root [0, 1] ⟨0, 2⟩ with closed := true }, .root [2] ⟨0, 2⟩]

theorem oversee_once_halfClosed :
    halfClosed.unstack 4 [3] = some [3, 2, 0, 1] ∧ [3, 2, 0, 1].Nodup ∧
    (∀ i ∈ [3, 2, 0, 1], i < halfClosed.size) ∧ (∀ o ∈ [heir], o.IsTame) ∧
    ∃ d' visits, oversee (Overseer.pipeline [heir]) { bubble := true } 4 [(3, none)]
        halfClosed = some (d', visits) ∧ visits.map (·.node) = [3, 2, 0, 1] ∧
      d'.node 2 = halfClosed.node 2 ∧ (d'.node 0).closed = true ∧
      ∃ visits', oversee (Overseer.pipeline [heir]) { bubble := false } 4 [(3, none)] d' =
        some (d', visits') := by
  have hwalk : halfClosed.unstack 4 [3] = some [3, 2, 0, 1] := by decide
  have hnodup : [3, 2, 0, 1].Nodup := by decide
  have hin : ∀ i ∈ [3, 2, 0, 1], i < halfClosed.size := by decide
  have htame : ∀ o ∈ [heir], o.IsTame := by
    intro o ho
    rw [List.mem_singleton.mp ho]
    exact ⟨fun _ _ _ _ => rfl, fun _ _ _ _ => rfl⟩
  obtain ⟨d', visits, hrun, horder, _, hcourse, hagain, _⟩ :=
    oversee_once hwalk hnodup hin htame { bubble := true }
  have hvisit {i : Nat} (hi : i ∈ [3, 2, 0, 1]) : ∃ v ∈ visits, v.node = i := by
    rw [← horder] at hi
    exact List.mem_map.mp hi
  obtain ⟨v, hv, hnode⟩ : ∃ v ∈ visits, v.node = 2 := hvisit (by decide)
  obtain ⟨u, hu, hnode'⟩ : ∃ v ∈ visits, v.node = 0 := hvisit (by decide)
  obtain ⟨visits', hrun', _⟩ := hagain (Overseer.pipeline [heir]) { bubble := false }
  refine ⟨hwalk, hnodup, hin, htame, d', visits, hrun, horder, ?_, ?_, visits', hrun'⟩
  · have hclosed : (halfClosed.node v.node).closed = true := by rw [hnode]; rfl
    exact hnode ▸ (hcourse.passed v hv hclosed).2
  · exact hnode' ▸ hcourse.closed hu

end Document

end TagTemplate
