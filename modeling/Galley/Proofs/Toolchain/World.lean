import Galley.Proofs.Work.Leads
import Galley.Toolchain.Driver

/-!
# Worlds of the toolchain

What a program does may depend on the starts before it and on the tree it finds: together they
are a `World`. Given the programs, a world tells how the next start ends (`World.status`) and
which world comes after it (`World.after`).

`Gives m w Q` says that the work `m`, done in the world `w`, gives a result if every start in it
succeeds, and that `Q` accepts the result, the starts and the world at the end. There is one rule
for each way to put work together.
-/

namespace Galley

namespace Toolchain

/-- What programs may depend on. -/
structure World where
  /-- The starts so far. -/
  starts : List Start
  tree : Tree

namespace World

/-- How the start of a program ends. -/
def ending (programs : Programs) (w : World) (s : Start) : Ending String :=
  (programs.text w.starts s w.tree).1

/-- The status of a program that runs. -/
def status (programs : Programs) (w : World) (s : Start) : Int :=
  ((w.ending programs s).status?).getD 0

/-- The world after the start of a program. -/
def after (programs : Programs) (w : World) (s : Start) : World where
  starts := w.starts ++ [s]
  tree := (programs.text w.starts s w.tree).2

end World

/-- Whether no start that the notes tell of failed. -/
def StartsSucceed (notes : List Note) : Prop := ∀ s t, .started s t none ∉ notes

instance (notes : List Note) : Decidable (StartsSucceed notes) :=
  decidable_of_iff (notes.all fun
    | .started _ _ none => false
    | _ => true) <| by
    rw [List.all_eq_true]
    constructor
    · intro h s t hmem
      exact Bool.false_ne_true (h _ hmem)
    · intro h n hmem
      split
      · next s t => exact absurd hmem (h s t)
      · rfl

/-- Whether work that is done in the world `w` gives what `Q` accepts if its starts succeed. -/
def Gives {α : Type} (m : ToolWork α) (w : World) (Q : α → List Start → World → Prop) : Prop :=
  ∀ past, startsOf past = w.starts → StartsSucceed (m.run past w.tree).events →
    ∃ a, (m.run past w.tree).result = .ok a ∧
      Q a (startsOf (m.run past w.tree).events)
        ⟨w.starts ++ startsOf (m.run past w.tree).events, (m.run past w.tree).state⟩

variable {α β : Type} {w : World}

/-! ### Rules -/

theorem Gives.imp {m : ToolWork α} {Q R : α → List Start → World → Prop} (h : Gives m w Q)
    (hQR : ∀ a ss w', Q a ss w' → R a ss w') : Gives m w R := by
  intro past hp hs
  obtain ⟨a, ha, hQ⟩ := h past hp hs
  exact ⟨a, ha, hQR _ _ _ hQ⟩

theorem gives_pure {a : α} {Q : α → List Start → World → Prop} (h : Q a [] w) :
    Gives (pure a) w Q := by
  intro past hp hs
  refine ⟨a, rfl, ?_⟩
  rw [Work.run_pure_apply, startsOf_nil, List.append_nil]
  exact h

theorem gives_bind {m : ToolWork α} {f : α → ToolWork β} {Q : β → List Start → World → Prop}
    (h : Gives m w fun a ss w' => Gives (f a) w' fun b ss' w'' => Q b (ss ++ ss') w'') :
    Gives (m >>= f) w Q := by
  intro past hp hs
  rw [Work.run_bind_apply] at hs ⊢
  have hm := h past hp
  rcases hr : m.run past w.tree with ⟨e | a, events, t⟩
  · rw [hr] at hs hm
    obtain ⟨a, ha, -⟩ := hm hs
    cases ha
  · rw [hr] at hs hm
    -- the starts of the whole succeed just if those of both parts do
    have hfirst : StartsSucceed events := fun s t' hmem => hs s t' (List.mem_append_left _ hmem)
    have hsecond : StartsSucceed ((f a).run (past ++ events) t).events :=
      fun s t' hmem => hs s t' (List.mem_append_right _ hmem)
    obtain ⟨a', ha, hf⟩ := hm hfirst
    cases ha
    obtain ⟨b, hb, hQ⟩ := hf (past ++ events) (by rw [startsOf_append, hp]) hsecond
    refine ⟨b, hb, ?_⟩
    simpa only [startsOf_append, List.append_assoc] using hQ

private theorem gives_lift {x : Chore α} {Q : α → List Start → World → Prop}
    (h : ∀ past, Q (x past w.tree).result (startsOf (x past w.tree).events)
      ⟨w.starts ++ startsOf (x past w.tree).events, (x past w.tree).state⟩) :
    Gives (liftM x) w Q := by
  intro past hp hs
  rw [Work.run_liftM_apply]
  exact ⟨_, rfl, h past⟩

theorem gives_log {level : Level} {text : String} {Q : Unit → List Start → World → Prop}
    (h : Q () [] w) : Gives (liftM (Chore.log level text)) w Q := by
  refine gives_lift fun past => ?_
  change Q () [] ⟨w.starts ++ [], w.tree⟩
  rwa [List.append_nil]

theorem gives_tree {Q : Tree → List Start → World → Prop} (h : Q w.tree [] w) :
    Gives (liftM Chore.tree) w Q := by
  refine gives_lift fun past => ?_
  change Q w.tree [] ⟨w.starts ++ [], w.tree⟩
  rwa [List.append_nil]

private theorem gives_start {programs : Programs} {s : Start}
    {Q : Ending String → List Start → World → Prop}
    (h : ∀ status output errors, w.ending programs s = .exited status output errors →
      Q (.exited status output errors) [s] (w.after programs s)) :
    Gives (liftM (Chore.start programs.text s)) w Q := by
  intro past hp hs
  have hstart : Chore.start programs.text s past w.tree =
      ⟨w.ending programs s, [.started s w.tree (w.ending programs s).status?],
        (w.after programs s).tree⟩ := by
    rw [World.ending, World.after, ← hp]
    rfl
  rw [Work.run_liftM_apply, hstart] at hs ⊢
  cases he : w.ending programs s with
  | exited status output errors => exact ⟨_, rfl, h status output errors he⟩
  | refused reason | broken message =>
    rw [he] at hs
    exact absurd List.mem_cons_self (hs s w.tree)

/-- A start that succeeds gives its status and its command, and leads to the world after it. -/
theorem gives_runProgram {programs : Programs} {s : Start}
    {Q : ToolOutput → List Start → World → Prop}
    (h : ∀ result : ToolOutput, result.status = w.status programs s →
      result.commands = [s.command] → Q result [s] (w.after programs s)) :
    Gives (runProgram programs s) w Q := by
  refine gives_bind (gives_log (gives_bind (gives_start fun status output errors he => ?_)))
  refine gives_pure (h _ ?_ rfl)
  rw [World.status, he]
  rfl

end Toolchain

end Galley
