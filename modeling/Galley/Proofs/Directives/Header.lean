import Galley.Proofs.Directives.Printed
import Mathlib.Data.List.Induction

/-!
# The header of a document

The header is what leads a document: blank lines and comments, up to the first line that is neither.
`IsHeader` says which directives the lines of a header hold, and `firstOfEach_ofText` is the main
result: of these directives the document has the first one of each key, in their order, whatever is
behind the header.

Directives are added one by one, so what is kept of them is an invariant of adding one more
(`FirstOfEach.insertIfNew`).
-/

namespace Galley.Directives

open Text

/-! ### Lines of a header -/

/-- Whether there is nothing on a line. -/
def IsBlankLine (line : List Char) : Prop := ∀ c ∈ line, isBlank c = true

/-- Whether the first thing on a line is a percent sign. -/
def IsComment (line : List Char) : Prop :=
  ∃ (margin : Blanks) (r : List Char), line = margin.text ++ '%' :: r

/-- Whether a line may stand in a header. -/
def MayLead (line : List Char) : Prop := IsBlankLine line ∨ IsComment line

private theorem isBlankLine_iff {line : List Char} : IsBlankLine line ↔ trim line = [] := by
  constructor
  · intro h
    rw [← List.append_nil line, trim_append_left h]
    rfl
  · intro h
    obtain ⟨l, r, hline, hl, hr⟩ := exists_eq_append_trim line
    rw [h, List.nil_append] at hline
    rw [hline]
    exact List.forall_mem_append.mpr ⟨hl, hr⟩

theorem isComment_iff {line : List Char} : IsComment line ↔ (trim line).head? = some '%' := by
  constructor
  · rintro ⟨margin, r, rfl⟩
    have htrim : trim ('%' :: r) = '%' :: trimRight r :=
      trimRight_append_cons (c := '%') (by decide) [] r
    rw [trim_append_left margin.isBlank_of_mem, htrim, List.head?_cons]
  · intro h
    obtain ⟨l, r, hline, hl, -⟩ := exists_eq_append_trim line
    obtain ⟨s, hs⟩ := List.head?_eq_some_iff.mp h
    exact ⟨⟨l, hl⟩, s ++ r, by rw [hline, hs, List.cons_append]⟩

instance (line : List Char) : Decidable (MayLead line) :=
  decidable_of_iff _ (or_congr isBlankLine_iff isComment_iff).symm

private theorem PrintedDirective.isComment (p : PrintedDirective) : IsComment p.line := by
  obtain ⟨r, hr⟩ := List.head?_eq_some_iff.mp
    (p.head?_text (p.behindEquals.text ++ (p.value ++ p.behindValue.text)))
  exact ⟨p.margin, r, by rw [line, hr]⟩

/-! ### Directives that are added in turn -/

/-- The lines that lead a document. -/
def headerOf (ls : List (List Char)) : List (List Char) := ls.takeWhile (MayLead ·)

/-- The directives on some lines, in order. -/
def directivesOn (ls : List (List Char)) : List (String × String) :=
  ls.filterMap fun line => ofLine? (trim line)

/-- Adds directives in turn, each unless its key is there already. -/
def insertAll (d : Directives) (kvs : List (String × String)) : Directives :=
  kvs.foldl (fun d kv => d.insertIfNew kv.1 kv.2) d

/-- The directives of a document are those of its header, added in turn. -/
theorem addLines_eq (d : Directives) (ls : List (List Char)) :
    d.addLines ls = d.insertAll (directivesOn (headerOf ls)) := by
  induction ls generalizing d with
  | nil => rfl
  | cons line rest ih =>
    rw [addLines, headerOf]
    cases ht : trim line with
    | nil =>
      have hlead : MayLead line := .inl (isBlankLine_iff.mpr ht)
      rw [List.takeWhile_cons_of_pos (by simpa using hlead), directivesOn, List.filterMap_cons, ht]
      exact ih d
    | cons c r =>
      have hblank : ¬ IsBlankLine line := by simp [isBlankLine_iff, ht]
      by_cases hc : c = '%'
      · have hlead : MayLead line := .inr (isComment_iff.mpr (by rw [ht, hc, List.head?_cons]))
        rw [List.takeWhile_cons_of_pos (by simpa using hlead), directivesOn,
          List.filterMap_cons, ht]
        simp only [hc, ne_eq, not_true_eq_false, if_false]
        cases ofLine? ('%' :: r) with
        | none => exact ih d
        | some kv => exact ih (d.insertIfNew kv.1 kv.2)
      -- Any other line ends the recursion, as it ends the header.
      · have hlead : ¬ MayLead line := by simp [MayLead, hblank, isComment_iff, ht, hc]
        rw [List.takeWhile_cons_of_neg (by simpa using hlead)]
        exact if_pos hc

/-- Whether some pairs are the first ones of each key among all, in the order in which the keys
occur. -/
structure FirstOfEach (pairs all : List (String × String)) : Prop where
  nodup : (pairs.map Prod.fst).Nodup
  keys_eq : pairs.map Prod.fst = (all.map Prod.fst).eraseDups
  lookup_eq : ∀ k, pairs.lookup k = all.lookup k

private theorem lookup_eq_none_iff_notMem {k : String} {pairs : List (String × String)} :
    pairs.lookup k = none ↔ k ∉ pairs.map Prod.fst := by
  rw [List.lookup_eq_none_iff, List.mem_map]
  constructor
  · rintro h ⟨kv, hkv, rfl⟩
    simpa using h kv hkv
  · intro h kv hkv
    rw [bne_iff_ne]
    rintro rfl
    exact h ⟨kv, hkv, rfl⟩

/-- What adding one more directive preserves. -/
theorem FirstOfEach.insertIfNew {d : Directives} {all : List (String × String)}
    (h : FirstOfEach d.pairs all) (k v : String) :
    FirstOfEach (d.insertIfNew k v).pairs (all ++ [(k, v)]) := by
  have hmem : k ∈ all.map Prod.fst ↔ k ∈ d.pairs.map Prod.fst := by
    rw [h.keys_eq, List.mem_eraseDups]
  have hkeys : ((all ++ [(k, v)]).map Prod.fst).eraseDups =
      d.pairs.map Prod.fst ++ ([k].removeAll (all.map Prod.fst)).eraseDups := by
    rw [List.map_append, List.eraseDups_append, h.keys_eq]
    rfl
  rw [Directives.insertIfNew, get?]
  split
  · next hnone =>
    have hk := lookup_eq_none_iff_notMem.mp hnone
    refine ⟨?_, ?_, fun k' => ?_⟩
    · rw [List.map_append, List.nodup_append]
      refine ⟨h.nodup, List.pairwise_singleton _ _, fun a ha b hb hab => hk ?_⟩
      obtain rfl := List.mem_singleton.mp hb
      exact hab ▸ ha
    · rw [hkeys, List.map_append]
      simp [List.removeAll, hmem, hk, List.eraseDups_cons]
    · rw [List.lookup_append, List.lookup_append, h.lookup_eq]
  · next hsome =>
    have hk := not_not.mp (mt lookup_eq_none_iff_notMem.mpr hsome)
    refine ⟨h.nodup, ?_, fun k' => ?_⟩
    · rw [hkeys]
      simp [List.removeAll, hmem, hk]
    · rw [List.lookup_append, ← h.lookup_eq]
      by_cases hkk : k' = k
      · rw [hkk, Option.or_of_isSome (Option.isSome_iff_ne_none.mpr hsome)]
      · rw [List.lookup_cons, beq_eq_false_iff_ne.mpr hkk, List.lookup_nil, Option.or_none]

theorem firstOfEach_insertAll (all : List (String × String)) :
    FirstOfEach (({} : Directives).insertAll all).pairs all := by
  induction all using List.reverseRecOn with
  | nil => exact ⟨List.nodup_nil, rfl, fun k => rfl⟩
  | append_singleton all kv ih =>
    rw [insertAll, List.foldl_append]
    exact ih.insertIfNew kv.1 kv.2

/-! ### The main result -/

/-- The lines of a header and the directives that they hold, in order. -/
inductive IsHeader : List (List Char) → List PrintedDirective → Prop
  | nil : IsHeader [] []
  | blank {line : List Char} {ls : List (List Char)} {ps : List PrintedDirective}
      (h : IsBlankLine line) (hls : IsHeader ls ps) : IsHeader (line :: ls) ps
  /-- A comment that is no directive, however it is cut. -/
  | comment {line : List Char} {ls : List (List Char)} {ps : List PrintedDirective}
      (h : IsComment line) (hno : ∀ p : PrintedDirective, p.line ≠ line) (hls : IsHeader ls ps) :
      IsHeader (line :: ls) ps
  | directive (p : PrintedDirective) {ls : List (List Char)} {ps : List PrintedDirective}
      (hls : IsHeader ls ps) : IsHeader (p.line :: ls) (p :: ps)

namespace IsHeader

variable {ls : List (List Char)} {ps : List PrintedDirective}

private theorem mayLead (h : IsHeader ls ps) : ∀ line ∈ ls, MayLead line := by
  induction h with
  | nil => nofun
  | blank h _ ih => exact List.forall_mem_cons.mpr ⟨.inl h, ih⟩
  | comment h _ _ ih => exact List.forall_mem_cons.mpr ⟨.inr h, ih⟩
  | directive p _ ih => exact List.forall_mem_cons.mpr ⟨.inr p.isComment, ih⟩

private theorem directivesOn_eq (h : IsHeader ls ps) : directivesOn ls =
    ps.map PrintedDirective.pair := by
  induction h with
  | nil => rfl
  | blank h _ ih =>
    rw [directivesOn, List.filterMap_cons, isBlankLine_iff.mp h]
    exact ih
  | @comment line _ _ _ hno _ ih =>
    have hnone : ofLine? (trim line) = none := by
      refine Option.eq_none_iff_forall_ne_some.mpr fun kv hkv => ?_
      obtain ⟨p, hp, -⟩ := ofLine?_trim_eq_some_iff.mp hkv
      exact hno p hp
    rw [directivesOn, List.filterMap_cons, hnone]
    exact ih
  | directive p _ ih =>
    rw [directivesOn, List.filterMap_cons, ofLine?_trim_eq_some_iff.mpr ⟨p, rfl, rfl⟩,
      List.map_cons, ← ih]
    rfl

end IsHeader

/-- **The first directive of each key counts.** A document whose header holds some directives, each
printed in any way, with blank lines and other comments between them, has the first of each key, in
order, whatever stands behind the header. -/
theorem firstOfEach_ofText {text : List Char} {header body : List (List Char)}
    {ps : List PrintedDirective} (ht : lines text = header ++ body) (hh : IsHeader header ps)
    (hb : ∀ line ∈ body.head?, ¬ MayLead line) :
    FirstOfEach (ofText text).pairs (ps.map PrintedDirective.pair) := by
  have hheader : headerOf (lines text) = header := by
    rw [ht]
    exact takeWhile_append_of_head? (fun line hl => decide_eq_true (hh.mayLead line hl))
      fun line hl => decide_eq_false (hb line hl)
  rw [ofText, addLines_eq, hheader, hh.directivesOn_eq]
  exact firstOfEach_insertAll _

/-- A header with a directive that comes twice, and one without a value. -/
def sampleHeader : List (List Char) :=
  ["% !TeX program = xelatex".toList, "".toList, "% a comment = b".toList,
    " %%!tex\tPROGRAM=lualatex ".toList, "%! Rnw weave =  ".toList]

/-- A body in which there is what looks like a directive. -/
def sampleBody : List (List Char) :=
  ["\\documentclass{article}".toList, "% !TeX ts-program = x".toList]

theorem firstOfEach_ofText_sample : ∃ ps, IsHeader sampleHeader ps ∧
    ps.map PrintedDirective.pair = [("tex program", "xelatex"), ("tex program", "lualatex"),
      ("rnw weave", "")] ∧
    lines (joinWith ['\n'] (sampleHeader ++ sampleBody)) = sampleHeader ++ sampleBody ∧
    (∀ line ∈ sampleBody.head?, ¬ MayLead line) ∧
    FirstOfEach (ofText (joinWith ['\n'] (sampleHeader ++ sampleBody))).pairs
      [("tex program", "xelatex"), ("tex program", "lualatex"), ("rnw weave", "")] := by
  have hlines : lines (joinWith ['\n'] (sampleHeader ++ sampleBody)) =
      sampleHeader ++ sampleBody := by decide +kernel
  have hbody : ∀ line ∈ sampleBody.head?, ¬ MayLead line := by decide +kernel
  have hno : ofLine? (trim "% a comment = b".toList) = none := by decide +kernel
  obtain ⟨p, hp, hpp⟩ := ofLine?_trim_eq_some_iff.mp
    (show ofLine? (trim "% !TeX program = xelatex".toList) = some ("tex program", "xelatex") by
      decide +kernel)
  obtain ⟨q, hq, hqp⟩ := ofLine?_trim_eq_some_iff.mp
    (show ofLine? (trim " %%!tex\tPROGRAM=lualatex ".toList) = some ("tex program", "lualatex") by
      decide +kernel)
  obtain ⟨r, hr, hrp⟩ := ofLine?_trim_eq_some_iff.mp
    (show ofLine? (trim "%! Rnw weave =  ".toList) = some ("rnw weave", "") by decide +kernel)
  have hheader : IsHeader sampleHeader [p, q, r] := by
    rw [sampleHeader, ← hp, ← hq, ← hr]
    refine .directive p (.blank (isBlankLine_iff.mpr rfl)
      (.comment (isComment_iff.mpr (by decide)) ?_ (.directive q (.directive r .nil))))
    intro c hc
    rw [ofLine?_trim_eq_some_iff.mpr ⟨c, hc, rfl⟩] at hno
    cases hno
  have hpairs : [p, q, r].map PrintedDirective.pair = [("tex program", "xelatex"),
      ("tex program", "lualatex"), ("rnw weave", "")] := by
    simp only [List.map_cons, List.map_nil, hpp, hqp, hrp]
  refine ⟨[p, q, r], hheader, hpairs, hlines, hbody, ?_⟩
  rw [← hpairs]
  exact firstOfEach_ofText hlines hheader hbody

end Galley.Directives
