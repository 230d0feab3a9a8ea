import Mathlib.Logic.Relation
import Mathlib.Data.List.Basic

/-!
# Acyclic graphs from a post-order

A graph is given by the children of each node. `Topological children l` says that the nodes of `l` were
finished one after another, the last one first: the children of each come later in the list. A depth-first
search that never meets a node it is visiting builds such a list, and no node of it is on a cycle
(`Topological.acyclic`).
-/

namespace Base

variable {κ : Type} {children : κ → List κ}

/-- Each node's children come after it. -/
inductive Topological (children : κ → List κ) : List κ → Prop
  | nil : Topological children []
  | cons {node : κ} {rest : List κ} (hchildren : ∀ child ∈ children node, child ∈ rest)
      (hrest : Topological children rest) : Topological children (node :: rest)

theorem Topological.child_mem {l : List κ} (h : Topological children l) {node child : κ}
    (hnode : node ∈ l) (hchild : child ∈ children node) : child ∈ l := by
  induction h with
  | nil => cases hnode
  | cons hchildren _ ih =>
    obtain rfl | hnode := List.mem_cons.1 hnode
    · exact List.mem_cons_of_mem _ (hchildren child hchild)
    · exact List.mem_cons_of_mem _ (ih hnode)

/-- What is reached from the list stays in it. -/
theorem Topological.reach_mem {l : List κ} (h : Topological children l) {node other : κ}
    (hnode : node ∈ l) (hreach : Relation.ReflTransGen (fun a b => b ∈ children a) node other) :
    other ∈ l := by
  induction hreach with
  | refl => exact hnode
  | tail _ hstep ih => exact h.child_mem ih hstep

/-- **No node of the list is on a cycle.** -/
theorem Topological.acyclic {l : List κ} (h : Topological children l) {node : κ} (hnode : node ∈ l) :
    ¬ Relation.TransGen (fun a b => b ∈ children a) node node := by
  induction h with
  | nil => cases hnode
  | cons hchildren hrest ih =>
    rename_i first rest
    by_cases hlater : node ∈ rest
    · exact ih hlater
    · -- The node is the first one: its children lie in the rest, which is closed.
      obtain rfl : node = first := (List.mem_cons.1 hnode).resolve_right hlater
      intro hcycle
      obtain ⟨child, hchild, hback⟩ := Relation.TransGen.head'_iff.1 hcycle
      exact hlater (hrest.reach_mem (hchildren child hchild) hback)

/-- A cycle is reachable from a node. -/
def ReachesCycle (r : κ → κ → Prop) (node : κ) : Prop :=
  ∃ other, Relation.ReflTransGen r node other ∧ Relation.TransGen r other other

theorem ReachesCycle.head {r : κ → κ → Prop} {node child : κ} (hstep : r node child) (h : ReachesCycle r child) :
    ReachesCycle r node := by
  obtain ⟨other, hreach, hcycle⟩ := h
  exact ⟨other, .head hstep hreach, hcycle⟩

/-- No cycle is reachable from a node of the list. -/
theorem Topological.not_reachesCycle {l : List κ} (h : Topological children l) {node : κ} (hnode : node ∈ l) :
    ¬ReachesCycle (fun a b => b ∈ children a) node := by
  rintro ⟨other, hreach, hcycle⟩
  exact h.acyclic (h.reach_mem hnode hreach) hcycle

end Base
