import Galley.Proofs.Diagnostics.Merged
import Galley.Proofs.StaleLogs

/-!
# Where the byproducts of a document stand

A cleanup removes what stands next to the document under its stem, the very files that are stale
before a run and that a failed run is diagnosed by: `worksBeside_start_iff`. The stem is derived
three times on the way, from the document, from the TeX document and from the path that the
byproducts are named after, and the dots of a name are where the three could differ.

They differ for one kind of name. A document `..x` has a single dot for its stem, and a path that
ends in a single dot is the path of the directory itself. The byproducts of such a document are
named after its directory and stand next to that (`byproduct?_of_dot`).
-/

namespace Galley

open Work

/-! ### Names behind a directory -/

namespace Path

variable {p : Path}

private theorem name_join (h : p.parts ≠ []) (here : Path) : (here.join p).name = p.name := by
  obtain ⟨_ | _ | _, parts⟩ := p
  · obtain ⟨front, last, rfl⟩ := (List.eq_nil_or_concat parts).resolve_left h
    simp only [join, name, List.concat_eq_append, ← List.append_assoc, List.getLastD_concat]
  · rfl
  · rfl

private theorem withName?_join (h : p.parts ≠ []) (here : Path) (name : String) :
    (here.join p).withName? name =
      some (here.join { p with parts := p.parts.dropLast ++ [name] }) := by
  obtain ⟨_ | _ | _, parts⟩ := p
  · have hne : here.parts ++ parts ≠ [] := List.append_ne_nil_of_right_ne_nil _ h
    simp only [join, withName?, if_neg hne, List.dropLast_append_of_ne_nil h, List.append_assoc]
  · exact if_neg h
  · exact if_neg h

end Path

namespace Tree

variable {here : Path}

private theorem contains_join (h : here.isAbsolute = true) (t : Tree) (p : Path) :
    t.contains here (here.join p) = t.contains here p := by
  rw [contains, find, place_join h, contains, find]

end Tree

namespace Cleanup

variable {c : Cleanup} {here target : Path} {suffix : String}

/-! ### Byproducts -/

/-- The suffixes of all byproducts. -/
def byproductSuffixes : List String := auxiliarySuffixes ++ [bibliographySuffix] ++ logSuffixes

theorem isName_of_mem (h : suffix ∈ byproductSuffixes) : Path.IsName suffix := by
  have hall : ∀ s ∈ byproductSuffixes, '/' ∉ s.toList ∧ 2 < s.length := by decide
  exact ⟨(hall suffix h).1, (hall suffix h).2⟩

theorem Goes.mem {bibliography kept : Prop} (h : Goes bibliography kept suffix) :
    suffix ∈ byproductSuffixes := by
  cases h <;> decide

/-- The byproducts stand next to the document, unless its stem is a single dot. -/
theorem byproduct?_eq (here : Path) (hp : ∀ w ∈ target.parts, '/' ∉ w.toList)
    (hn : target.name ≠ "") (hd : target.stem ≠ ".") (suffix : String) :
    byproduct? (here.join (target.parent.child target.stem)) suffix =
      some (here.join (target.beside suffix)) := by
  have hspelling : Path.ofString target.stem = ⟨.here, [target.stem]⟩ := by
    refine Path.ofString_eq (Path.no_slash_stem hp) (fun h => ?_) fun h => ?_
    · exact Path.stem_ne_empty hn (String.toList_eq_nil_iff.mp h)
    · exact hd (String.toList_injective h)
  have hbase : target.parent.child target.stem = target.beside "" := by
    rw [Path.child, hspelling, Path.beside, String.append_empty]
    rfl
  have hparts : (target.beside "").parts ≠ [] := List.append_ne_nil_of_right_ne_nil _ (by simp)
  rw [hbase, byproduct?, Path.withName?_join hparts, Path.name_join hparts,
    Path.name_beside, String.append_empty, Path.beside, List.dropLast_concat, Path.beside]

/-- With a single dot for a stem the byproducts are those of the directory. -/
theorem byproduct?_of_dot (hd : target.stem = ".") (suffix : String) :
    byproduct? (here.join (target.parent.child target.stem)) suffix =
      byproduct? (here.join target.parent) suffix := by
  have hdot : Path.ofString "." = ⟨.here, []⟩ := by decide
  have hbase : target.parent.child target.stem = target.parent := by
    rw [hd, Path.child, hdot, Path.join, List.append_nil]
  rw [hbase]

/-- Next to a directory is not in it. -/
private theorem byproduct?_parent_ne (hn : target.name ≠ "") (suffix ending : String) :
    byproduct? (here.join target.parent) suffix ≠ some (here.join (target.beside ending)) := by
  have hlength : (here.join (target.beside ending)).parts.length =
      (here.join target.parent).parts.length + 1 := by
    obtain ⟨_ | _ | _, parts⟩ := target <;>
      simp [Path.join, Path.beside, Path.parent, Nat.add_assoc]
  intro h
  rw [byproduct?, Path.withName?] at h
  split at h
  · cases h
  · next hne =>
    have hparts := congrArg (·.parts.length) (Option.some.inj h)
    have hpos : 0 < (here.join target.parent).parts.length := List.length_pos_iff.mpr hne
    simp only [List.length_append, List.length_dropLast, List.length_singleton, hlength] at hparts
    omega

/-! ### The files of a document -/

/-- Whether a cleanup works on the files that the rest of a compilation makes of a document. -/
structure WorksBeside (c : Cleanup) (here target : Path) : Prop where
  /-- The byproducts stand next to the document under its stem. -/
  byproduct : ∀ suffix ∈ byproductSuffixes,
    c.base.bind (byproduct? · suffix) = some (here.join (target.beside suffix))
  /-- What is removed are those that are due. -/
  removed (t : Tree) (past : List Note) : t.Less (c.run here past t).state fun q =>
    ∃ suffix, Goes (t.contains here (target.beside ".bib") = true) (c.keepsLogs = true) suffix ∧
      t.place here (target.beside suffix) = .ok q ∧ t.IsFile q
  /-- What is removed before a run are the same logs. -/
  stale (t : Tree) (past : List Note) :
    t.Less (removeStaleLogs here (target.sibling ".tex") past t).state fun q =>
      ∃ suffix ∈ logSuffixes, t.place here (target.beside suffix) = .ok q ∧ t.IsFile q
  /-- The diagnostics are read from the same logs. -/
  collected (t : Tree) (concordance : Concordance) (past : List Note) :
    (Diagnostics.collect here (target.sibling ".tex") concordance past t).result =
      ((contribution (TexLog.load t here (target.beside ".log"))).mapM
        (Entry.remap here concordance)).map fun tex =>
          ⟨target.parent, tex, contribution (BibtexLog.load t here (target.beside ".blg"))⟩

private theorem isByproduct_iff (habs : here.isAbsolute = true) {t : Tree} {base p : Path}
    {q : Place} (h : byproduct? base suffix = some (here.join p)) :
    IsByproduct t here base suffix q ↔ t.place here p = .ok q ∧ t.IsFile q := by
  rw [IsByproduct, h]
  simp only [Option.some.injEq, exists_eq_left', Tree.place_join habs]

private theorem hasSource_iff (habs : here.isAbsolute = true) {t : Tree} {base p : Path}
    (h : byproduct? base ".bib" = some (here.join p)) :
    HasSource t here base ↔ t.contains here p = true := by
  have hsource : byproduct? base bibliographySourceSuffix = some (here.join p) := h
  rw [HasSource, hsource]
  simp only [Option.some.injEq, exists_eq_left', Tree.contains_join habs]

/-- **The same files everywhere**: a cleanup works on what stands next to the document under its
stem, and on the logs that a run begins without and is diagnosed by, just if the stem is not a
single dot. -/
theorem worksBeside_start_iff (habs : here.isAbsolute = true) {spelling : String}
    (hn : (Path.ofString spelling).name ≠ "") :
    (c.start here (Path.ofString spelling)).WorksBeside here (Path.ofString spelling) ↔
      (Path.ofString spelling).stem ≠ "." := by
  have hp := Path.no_slash_ofString spelling
  revert hn hp
  generalize Path.ofString spelling = target
  intro hn hp
  constructor
  · intro h hd
    have hout := h.byproduct ".out" (by decide)
    rw [start, Option.bind_some, byproduct?_of_dot hd] at hout
    exact byproduct?_parent_ne hn ".out" ".out" hout
  · intro hd
    have hbyproduct := byproduct?_eq here hp hn hd
    have hlog : texLogPath (target.sibling ".tex") = target.beside ".log" :=
      Path.sibling_sibling_eq_beside hp (Path.stem_ne_empty hn) ⟨by decide, by decide⟩
    have hblg : bibtexLogPath (target.sibling ".tex") = target.beside ".blg" :=
      Path.sibling_sibling_eq_beside hp (Path.stem_ne_empty hn) ⟨by decide, by decide⟩
    have hparent : (target.sibling ".tex").parent = target.parent := by
      rw [Path.sibling_eq_beside hp ⟨by decide, by decide⟩, Path.beside, Path.parent,
        List.dropLast_concat]
      rfl
    constructor
    · exact fun suffix _ => hbyproduct suffix
    · intro t past
      refine (run_less past).congr fun q => ?_
      simp only [start, Option.some.injEq, exists_eq_left', isByproduct_iff habs (hbyproduct _),
        hasSource_iff habs (hbyproduct _)]
    · intro t past
      refine (removeStaleLogs_less_place t here _ past).congr fun q => ?_
      rw [hlog, hblg, or_comm, or_and_right]
      simp only [logSuffixes, List.mem_cons, List.not_mem_nil, or_false, exists_eq_or_imp,
        exists_eq_left]
    · intro t concordance past
      rw [Diagnostics.result_collect, hlog, hblg, hparent]

theorem worksBeside_start_threeDots :
    (Path.ofString "/").isAbsolute = true ∧ (Path.ofString "d/...tex").name ≠ "" ∧
      (({} : Cleanup).start (Path.ofString "/") (Path.ofString "d/...tex")).WorksBeside
        (Path.ofString "/") (Path.ofString "d/...tex") :=
  ⟨by decide, by decide, (worksBeside_start_iff (by decide) (by decide)).mpr (by decide)⟩

/-- A tree with a file that has the name of a directory and the suffix of a byproduct. -/
def besideDirectory : Tree :=
  ((∅ : Tree).write (Path.ofString "/") (Path.ofString "/d.aux") []).toOption.getD ∅

/-- **A stem that is a single dot leads out of the directory**: the document is in `d`, and what is
removed is the file `d.aux` next to `d`. -/
theorem run_of_twoDots :
    let target := Path.ofString "/d/..tex"
    let c := ({} : Cleanup).start (Path.ofString "/") target
    target.name = "..tex" ∧ target.beside ".aux" = Path.ofString "/d/..aux" ∧
      ¬ c.WorksBeside (Path.ofString "/") target ∧
      (c.run (Path.ofString "/") [] besideDirectory).result.1 = ["d.aux"] := by
  refine ⟨by decide, by decide, fun h => ?_, by decide +kernel⟩
  exact absurd (h.byproduct ".aux" (by decide)) (by decide)

end Cleanup

end Galley
