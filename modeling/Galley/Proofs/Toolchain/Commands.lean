import Galley.Proofs.Toolchain.Success

/-!
# Commands of a driver

A driver starts programs in the directory of its document only, and a result of it lists the
commands of all that were started, in order: `Choice.lists_run`. What was run before a part of a
driver is handed on to it as the output so far, so a part is judged by what it adds (`Lists`).
-/

namespace Galley.Toolchain

open Work

variable {dir : Path} {past : List Note} {t : Tree}

/-- Whether all starts were in the directory `dir`, and a result lists their commands behind
those that were there `before`. -/
structure Lists (dir : Path) (before : List (List String)) (r : Except DriverError ToolOutput)
    (notes : List Note) : Prop where
  directory : ∀ s ∈ startsOf notes, s.directory = some dir
  commands : ∀ out, r = .ok out → out.commands = before ++ (startsOf notes).map Start.command

namespace Lists

variable {before : List (List String)} {r : Except DriverError ToolOutput} {notes : List Note}

private theorem silent {out : ToolOutput} (h : startsOf notes = []) (hb : out.commands = before) :
    Lists dir before (.ok out) notes := by
  refine ⟨by simp [h], ?_⟩
  rintro _ ⟨⟩
  simp [h, hb]

private theorem error {e : DriverError} (h : ∀ s ∈ startsOf notes, s.directory = some dir) :
    Lists dir before (.error e) notes :=
  ⟨h, nofun⟩

private theorem behind_message {m : Message} (h : Lists dir before r notes) :
    Lists dir before r ([.logged m] ++ notes) :=
  ⟨h.directory, h.commands⟩

/-- A step and what is run behind it. -/
private theorem andThen {out : ToolOutput} {notes' : List Note}
    (h : Lists dir before (.ok out) notes)
    (h' : Lists dir out.commands r notes') : Lists dir before r (notes ++ notes') := by
  refine ⟨?_, fun out' ho => ?_⟩
  · rw [startsOf_append, List.forall_mem_append]
    exact ⟨h.directory, h'.directory⟩
  · rw [h'.commands out' ho, h.commands out rfl, startsOf_append, List.map_append,
      List.append_assoc]

/-- A step whose output is added to that of others. -/
private theorem extend {out combined : ToolOutput} (h : Lists dir [] (.ok out) notes) :
    Lists dir combined.commands (.ok (combined.extend out)) notes := by
  refine ⟨h.directory, ?_⟩
  rintro _ ⟨⟩
  rw [ToolOutput.extend, h.commands out rfl, List.nil_append]

end Lists

/-- A program that is run is started once. -/
theorem leads_runProgram_starts {programs : Programs} {s : Start} :
    Leads (runProgram programs s).run past t fun r notes _ =>
      startsOf notes = [s] ∧ ∀ out, r = .ok out → out.commands = [s.command] := by
  refine leads_lift_bind (leads_log (leads_lift_bind (leads_start ?_)))
  cases (programs.text (startsOf (past ++ _)) s t).1 with
  | exited status output errors =>
    refine leads_stage_pure ⟨rfl, ?_⟩
    rintro _ ⟨⟩
    rfl
  | refused reason | broken message => exact leads_throw ⟨rfl, nofun⟩

private theorem lists_runProgram {programs : Programs} {s : Start} (h : s.directory = some dir) :
    Leads (runProgram programs s).run past t fun r notes _ => Lists dir [] r notes := by
  refine leads_runProgram_starts.imp fun r notes _ ⟨hn, hc⟩ => ⟨?_, fun out ho => ?_⟩
  · rw [hn]
    exact List.forall_mem_singleton.mpr h
  · rw [hc out ho, hn]
    rfl

namespace Emulation

variable {e : Emulation} {tex : Path} {o : TexOptions} {pass : ToolWork ToolOutput}

/-- Further passes add their commands to those of the output so far. -/
private theorem lists_furtherPasses
    (hp : ∀ past t, Leads pass.run past t fun r notes _ => Lists dir [] r notes) {log : Path}
    {allowed pending : Nat} {combined : ToolOutput × Nat} :
    Leads (e.furtherPasses pass log allowed pending combined).run past t fun r notes _ =>
      Lists dir combined.1.commands (r.map Prod.fst) notes := by
  -- the induction is on the passes that are still allowed
  induction allowed generalizing past t pending combined with
  | zero => exact leads_stage_pure (.silent rfl rfl)
  | succ allowed ih =>
    obtain ⟨combined, passes⟩ := combined
    have again : ∀ past t, Leads (do
          let combined := combined.extend (← pass)
          if combined.status ≠ 0 then return (combined, passes + 1)
          e.furtherPasses pass log allowed (pending - 1) (combined, passes + 1) :
            ToolWork (ToolOutput × Nat)).run past t
        fun r notes _ => Lists dir combined.commands (r.map Prod.fst) notes := by
      intro past t
      refine leads_stage_bind ((hp past t).imp ?_)
      rintro (stop | result) notes t' hl
      · exact .error hl.directory
      dsimp only
      split
      · exact leads_stage_pure (hl.extend.andThen (.silent rfl rfl))
      · exact ih.imp fun r notes' _ hr => hl.extend.andThen hr
    rw [furtherPasses]
    split
    · refine leads_stage_bind (leads_needsRerun.imp ?_)
      rintro (stop | needed) notes t' rfl
      · exact .error (by simp)
      · cases needed with
        | true => exact again _ t'
        | false => exact leads_stage_pure (.silent rfl rfl)
    · exact again _ t

private theorem lists_settle
    (hp : ∀ past t, Leads pass.run past t fun r notes _ => Lists dir [] r notes)
    {pending : Nat} {combined : ToolOutput} :
    Leads (e.settle tex pass pending combined).run past t fun r notes _ =>
      Lists dir combined.commands r notes := by
  refine leads_stage_bind ((lists_furtherPasses hp).imp ?_)
  rintro (stop | ⟨result, passes⟩) notes t' hl
  · exact .error hl.directory
  · refine leads_lift_bind (leads_log (leads_stage_pure ⟨?_, ?_⟩))
    · simpa using hl.directory
    · rintro _ ⟨⟩
      simpa using hl.commands result rfl

private theorem lists_indexAndSettle
    (hp : ∀ past t, Leads pass.run past t fun r notes _ => Lists tex.parent [] r notes)
    {pending : Nat} {combined : ToolOutput} :
    Leads (e.indexAndSettle tex pass pending combined).run past t fun r notes _ =>
      Lists tex.parent combined.commands r notes := by
  refine leads_stage_bind (leads_needsMakeindex.imp ?_)
  rintro (stop | needed) notes t' rfl
  · exact .error (by simp)
  cases needed with
  | false => exact lists_settle hp
  | true =>
    refine leads_stage_bind ((lists_runProgram rfl).imp ?_)
    rintro (stop | result) notes t' hl
    · exact .error hl.directory
    dsimp only
    split
    · exact leads_stage_pure (hl.extend.andThen (.silent rfl rfl))
    · exact (lists_settle hp).imp fun r notes' _ hr => hl.extend.andThen hr

private theorem lists_compile : Leads (e.compile tex o).run past t fun r notes _ =>
    Lists tex.parent [] r notes := by
  have hp : ∀ past t, Leads (runProgram e.programs
      ⟨toString o.program :: o.arguments ++ [tex.name], some tex.parent, none⟩).run past t
      fun r notes _ => Lists tex.parent [] r notes :=
    fun past t => lists_runProgram rfl
  refine leads_lift_bind (leads_log (leads_stage_bind ((hp _ t).imp ?_)))
  rintro (stop | first) notes t' hfirst
  · exact .error hfirst.directory
  dsimp only
  split
  · exact leads_stage_pure (hfirst.andThen (.silent rfl rfl)).behind_message
  refine leads_stage_bind (leads_needsBibtex.imp ?_)
  rintro (stop | needed) notes' t'' rfl
  · exact (hfirst.andThen (.error (by simp))).behind_message
  cases needed with
  | false =>
    exact (lists_indexAndSettle hp).imp fun _ _ _ h => (hfirst.andThen h).behind_message
  | true =>
    refine leads_stage_bind ((lists_runProgram rfl).imp ?_)
    rintro (stop | result) notes' t'' hl
    · exact (hfirst.andThen (.error hl.directory)).behind_message
    dsimp only
    split
    · exact leads_stage_pure (hfirst.andThen (hl.extend.andThen (.silent rfl rfl))).behind_message
    · split
      · refine leads_lift_bind (leads_log ((lists_indexAndSettle hp).imp fun _ _ _ h => ?_))
        exact (hfirst.andThen (hl.extend.andThen h.behind_message)).behind_message
      · exact (lists_indexAndSettle hp).imp fun _ _ _ h =>
          (hfirst.andThen (hl.extend.andThen h)).behind_message

end Emulation

/-- **A driver lists what it starts**, and it starts it in the directory of the document. -/
theorem Choice.lists_run {choice : Choice} {host : Host} {programs : Programs}
    {which : Tree → String → Option String} {tex : Path} {o : TexOptions} :
    Leads ((choice.driver host programs which).run tex o).run past t fun r notes _ =>
      Lists tex.parent [] r notes := by
  cases choice with
  | emulated maxPasses => exact Emulation.lists_compile
  | texi2dvi path =>
    exact leads_lift_bind (leads_log ((lists_runProgram rfl).imp fun _ _ _ h =>
      h.behind_message))

end Galley.Toolchain
