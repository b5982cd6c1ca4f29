import TagTemplate.Proofs.Document.Pieces
import TagTemplate.Proofs.Render.Leaves
import TagTemplate.Proofs.Render.Twins

/-! # Texts woven from pieces

The children of a root are rendered one after another, and how the literal text among them is cut
into nodes does not show.  So a root can be rendered piece by piece: a character stands for itself,
and a number for the text of its node.

* `sequence_eq_weave`: the texts of the parts of a list are woven from their entries.
* `twins_weave`: corresponding nodes between the same characters are woven alike. -/

namespace TagTemplate

namespace Rendering

open TagTemplate.Part

/-- Characters that stand for themselves, and the texts of nodes between them. -/
def weave (render : Nat → Rendering String) : List (Char ⊕ Nat) → Rendering (List Char)
  | [] => pure []
  | .inl ch :: rest => (ch :: ·) <$> weave render rest
  | .inr i :: rest => do
    let text ← render i
    return text.toList ++ (← weave render rest)

section weave
variable {render : Nat → Rendering String}

theorem weave_append (l m : List (Char ⊕ Nat)) :
    weave render (l ++ m) = do
      let xs ← weave render l
      return xs ++ (← weave render m) := by
  induction l with
  | nil => simp [weave]
  | cons x l ih =>
      cases x with
      | inl ch => simp [weave, ih]
      | inr i => simp [weave, ih, ← List.append_assoc]

theorem weave_chars (cs : List Char) : weave render (cs.map .inl) = pure cs := by
  induction cs with
  | nil => rfl
  | cons ch cs ih => simp [weave, ih]

theorem weave_singleton (i : Nat) : weave render [.inr i] = String.toList <$> render i := by
  simp [weave]

theorem sequence_cons_eq (i : Nat) (ids : List Nat) :
    sequence render (i :: ids) = do
      let x ← render i
      return x ++ (← sequence render ids) := by
  simp [sequence, String.join_cons]

end weave

variable {env : Environment} {depth : Nat}

theorem renderNode_of_literal {id : Nat} {s : RenderState} {text : String}
    (hk : (s.node id).kind = .literal) (ht : (s.node id).text? = some text) :
    renderNode env depth id s = (.ok text, s) := by
  have hlife : hasLifecycle (s.node id).kind = false := by rw [hk]; rfl
  have hown : ownText env id (held (renderNode env depth) id) s = (.ok text, s) := by
    rw [ownText, bind_of_ok (node_apply id s), hk, ht]
    rfl
  rw [renderNode_eq, nodeWith, bind_of_ok (node_apply id s), withLifecycle_of_not _ hlife, hk]
  exact hown

/-- What has been woven leaves the nodes so far as they were. -/
theorem weave_stays (l : List (Char ⊕ Nat)) (s : RenderState)
    (h : ∀ i, .inr i ∈ l → i < s.document.size) :
    s.document.Stays (weave (renderNode env depth) l s).2.document := by
  induction l generalizing s with
  | nil => exact .refl _
  | cons x l ih =>
      cases x with
      | inl ch =>
          rw [weave, map_apply]
          exact ih s fun i hi => h i (List.mem_cons_of_mem _ hi)
      | inr i =>
          have hstays := (renderNode_acts env depth i s (h i List.mem_cons_self)).stays
          rw [weave, bind_apply]
          cases hr : renderNode env depth i s with
          | mk r t =>
              rw [hr] at hstays
              cases r with
              | error e => exact hstays
              | ok x =>
                  have hrest := ih t fun j hj =>
                    Nat.lt_of_lt_of_le (h j (List.mem_cons_of_mem _ hj)) hstays.size_le
                  dsimp only
                  rw [snd_bind fun _ _ => rfl]
                  exact hstays.trans hrest

/-! ### The parts of a root -/

section parts
variable {g : Option Nat → Node → Node} (hg : Grounded g) {d : Document} {parent : Option Nat}
  {s : RenderState}
include hg

theorem weave_entry {n : Nat} {p : Part} (hd : d.Holds n (run g n parent p))
    (hs : d.Stays s.document) :
    weave (renderNode env depth) ((entry n p).map Entry.top) s =
      (String.toList <$> renderNode env depth (n + p.count - 1)) s := by
  cases p with
  | literal text span =>
      have hget : d.get? n = some (g parent (.literal text span)) := hd 0 _ rfl
      have hlt : n < d.size := by
        obtain ⟨hn, _⟩ := Array.getElem?_eq_some_iff.mp hget
        exact hn
      have hnode : d.node n = g parent (.literal text span) := by
        rw [Document.node, hget, Option.getD_some]
      have hstays := hs.node hlt
      have hkind : (s.node n).kind = .literal := by
        rw [RenderState.node, hstays.kind, hnode, hg.kind]
        rfl
      have htext : (s.node n).text? = some text := by
        rw [RenderState.node, hstays.eq, hnode]
        show (g parent (.literal text span)).text? = some text
        rw [Node.text?, hg.content]
        rfl
      have hchars : (entry n (.literal text span)).map Entry.top = text.toList.map .inl := by
        rw [entry, List.map_map]
        rfl
      have hcount : n + (Part.literal text span).count - 1 = n := Nat.add_sub_cancel n 1
      rw [hchars, weave_chars, map_apply, hcount, renderNode_of_literal hkind htext]
      rfl
  | leaf | raw | block => exact congrFun (weave_singleton _) s

/-- The texts of a list of parts are woven from their entries. -/
theorem sequence_eq_weave {n : Nat} {ps : List Part} (hd : d.Holds n (runAll g n parent ps))
    (hs : d.Stays s.document) :
    sequence (renderNode env depth) (numbers n ps) s =
      (String.ofList <$> weave (renderNode env depth) ((entries n ps).map Entry.top)) s := by
  induction ps generalizing n s with
  | nil => rfl
  | cons p rest ih =>
      rw [runAll] at hd
      have hright := hd.right
      rw [length_run] at hright
      have hlt : n + p.count - 1 < s.document.size := by
        have hget := hd.left (p.count - 1) _ (getElem?_run_own n parent p)
        obtain ⟨hn, _⟩ := Array.getElem?_eq_some_iff.mp hget
        have := p.count_pos
        have := hs.size_le
        unfold Document.size at *
        omega
      have hstays := (renderNode_acts env depth _ s hlt).stays
      rw [numbers, sequence_cons_eq, entries, List.map_append, weave_append, map_apply, bind_apply,
        bind_apply, weave_entry hg hd.left hs, map_apply]
      cases hr : renderNode env depth (n + p.count - 1) s with
      | mk r t =>
          rw [hr] at hstays
          cases r with
          | error e => rfl
          | ok x =>
              have hrest := ih hright (hs.trans hstays)
              dsimp only [Except.map]
              rw [bind_apply, bind_apply, hrest, map_apply]
              cases weave (renderNode env depth) ((entries (n + p.count) rest).map Entry.top) t with
              | mk r u =>
                  cases r with
                  | error e => rfl
                  | ok xs => simp [Except.map, String.ofList_append]

end parts

/-! ### Corresponding nodes -/

/-- Corresponding nodes between the same characters are woven alike. -/
theorem twins_weave {c : Coupling} (henv : env.toolkit = .builtin) (hclosed : c.Closed env)
    {l : List (Nat × NodeKind)} {xs : List (Char ⊕ Nat)}
    (h : ∀ i, .inr i ∈ xs → c.whole i ∧ ∃ k, (i, k) ∈ l) :
    Twins env c l (weave (renderNode env depth) xs)
      (weave (renderNode env depth) (xs.map (Sum.map id c.partner))) := by
  induction xs with
  | nil => exact .pure _
  | cons x xs ih =>
      have hrest := ih fun i hi => h i (List.mem_cons_of_mem _ hi)
      cases x with
      | inl ch => exact hrest.map _
      | inr i =>
          obtain ⟨hw, k, hk⟩ := h i List.mem_cons_self
          refine ((renderNode_twins henv hclosed depth i k hw).weaken fun p hp => ?_).bind fun _ =>
            hrest.bind fun _ => .pure _
          rw [List.mem_singleton.mp hp]
          exact hk

end Rendering

end TagTemplate
