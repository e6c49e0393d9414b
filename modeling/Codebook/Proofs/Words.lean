/-
# Words

Text is cut at white space and then into maximal runs of word characters. No white space is a word
character, so the runs are the same whether a text is cut into words first or not, and whether the words
of several texts are looked at text by text or joined into one text, each once.

The two forms of lower case differ just where a capital sigma stands at the end of a word. There one of
them has a final sigma, which the other makes of nothing but a final sigma.

Key definitions: `Text.IsRun`, `IsToken`, `Text.HasFinalSigma`.
Key theorems: `Text.mem_runs`, `Text.runs_flatMap`, `mem_rawTokens_joinWords`,
`Text.lower_eq_lowerEach`, `Text.finalSigma_mem_lower`, `Text.finalSigma_notMem_lowerEach`.
-/
import Codebook.Document.Token
import Mathlib.Data.List.TakeWhile

namespace Codebook
namespace Text

/-! ### Runs -/

section

variable {p q : Char → Bool} {c : Char} {run cs : List Char}

/-- A maximal run: characters in a row that satisfy `p`, with no such character before or after them. -/
def IsRun (p : Char → Bool) (run cs : List Char) : Prop :=
  ∃ before after, cs = before ++ run ++ after ∧ run ≠ [] ∧ (∀ c ∈ run, p c = true) ∧
    (∀ c ∈ before.getLast?, p c = false) ∧ ∀ c ∈ after.head?, p c = false

theorem runs_skip (hc : p c = false) : runs p (c :: cs) = runs p cs := by
  simp [runs, hc]

theorem runs_end (hc : p c = true) (hcs : ∀ d ∈ cs.head?, p d = false) :
    runs p (c :: cs) = [c] :: runs p cs := by
  refine (if_pos hc).trans ?_
  cases cs with
  | nil => rfl
  | cons d cs =>
    cases runs p (d :: cs) with
    | nil => rfl
    | cons run rest => exact if_neg (by simp [hcs d rfl])

theorem runs_continue {d : Char} {rest : List (List Char)} (hc : p c = true) (hd : p d = true)
    (h : runs p (d :: cs) = run :: rest) : runs p (c :: d :: cs) = (c :: run) :: rest := by
  refine (if_pos hc).trans ?_
  rw [h]
  exact if_pos hd

theorem runs_append {after : List Char} (hne : run ≠ []) (hrun : ∀ c ∈ run, p c = true)
    (hafter : ∀ c ∈ after.head?, p c = false) : runs p (run ++ after) = run :: runs p after := by
  induction run with
  | nil => exact absurd rfl hne
  | cons c run ih =>
    have hc := hrun c List.mem_cons_self
    cases run with
    | nil => exact runs_end hc hafter
    | cons d run =>
      exact runs_continue hc (hrun d (by simp))
        (ih (by simp) fun x hx => hrun x (List.mem_cons_of_mem _ hx))

/-- Texts are made up of characters that are left out and of runs, each as long as it can be. -/
@[elab_as_elim]
theorem run_induction {motive : List Char → Prop} (p : Char → Bool) (nil : motive [])
    (skip : ∀ c cs, p c = false → motive cs → motive (c :: cs))
    (append : ∀ run after, run ≠ [] → (∀ c ∈ run, p c = true) → (∀ c ∈ after.head?, p c = false) →
      motive after → motive (run ++ after)) : ∀ cs, motive cs
  | [] => nil
  | c :: cs => by
    cases hc : p c with
    | false => exact skip c cs hc (run_induction p nil skip append cs)
    | true =>
      have hafter : ∀ d ∈ (cs.dropWhile p).head?, p d = false := fun d hd => by
        have := List.head?_dropWhile_not p cs
        rwa [Option.mem_def.mp hd] at this
      rw [← List.takeWhile_append_dropWhile (p := p) (l := cs), ← List.cons_append]
      exact append _ _ (by simp)
        (fun d hd => (List.mem_cons.mp hd).elim (· ▸ hc) List.mem_takeWhile_imp) hafter
        (run_induction p nil skip append (cs.dropWhile p))
termination_by cs => cs.length
decreasing_by
  · simp
  · have := (List.dropWhile_sublist p (l := cs)).length_le
    simp only [List.length_cons]
    omega

/-- What is left out ends a run. -/
theorem runs_append_cons (hc : p c = false) (cs rest : List Char) :
    runs p (cs ++ c :: rest) = runs p cs ++ runs p rest := by
  induction cs using run_induction p with
  | nil => exact runs_skip hc
  | skip d cs hd ih => rw [List.cons_append, runs_skip hd, runs_skip hd, ih]
  | append run after hne hrun hafter ih =>
    have hafter' : ∀ d ∈ (after ++ c :: rest).head?, p d = false := by
      cases after with
      | nil => simpa using hc
      | cons d after => simpa using hafter
    rw [List.append_assoc, runs_append hne hrun hafter', runs_append hne hrun hafter, ih,
      List.cons_append]

/-- What a text is cut into are its maximal runs. -/
theorem mem_runs : run ∈ runs p cs ↔ IsRun p run cs := by
  constructor
  · intro h
    induction cs using run_induction p with
    | nil => cases h
    | skip c cs hc ih =>
      rw [runs_skip hc] at h
      obtain ⟨before, after, rfl, hne, hrun, hbefore, hafter⟩ := ih h
      refine ⟨c :: before, after, rfl, hne, hrun, ?_, hafter⟩
      rw [List.getLast?_cons]
      cases hlast : before.getLast? with
      | none => simpa using hc
      | some d => simpa using hbefore d hlast
    | append first rest hne hfirst hrest ih =>
      rw [runs_append hne hfirst hrest] at h
      rcases List.mem_cons.mp h with rfl | h
      · exact ⟨[], rest, by simp, hne, hfirst, by simp, hrest⟩
      · obtain ⟨before, after, rfl, hne', hrun, hbefore, hafter⟩ := ih h
        refine ⟨first ++ before, after, by simp, hne', hrun, ?_, hafter⟩
        -- the run cannot follow the first one at once, which would not be maximal then
        have hbetween : before ≠ [] := by
          rintro rfl
          obtain ⟨c, run, rfl⟩ := List.exists_cons_of_ne_nil hne'
          exact absurd (hrun c List.mem_cons_self) (by simp [hrest c rfl])
        rwa [List.getLast?_append, List.getLast?_eq_some_getLast hbetween, Option.some_or,
          ← List.getLast?_eq_some_getLast hbetween]
  · rintro ⟨before, after, rfl, hne, hrun, hbefore, hafter⟩
    have hmem : run ∈ runs p (run ++ after) := by
      rw [runs_append hne hrun hafter]
      exact List.mem_cons_self
    rcases List.eq_nil_or_concat before with rfl | ⟨before, c, rfl⟩
    · simpa using hmem
    · have hc := hbefore c (by simp)
      rw [List.concat_eq_append, List.append_assoc, List.append_assoc, List.singleton_append,
        runs_append_cons hc]
      exact List.mem_append_right _ hmem

/-- A text can be cut into coarser runs first. -/
theorem runs_flatMap (hpq : ∀ c, p c = true → q c = true) (cs : List Char) :
    runs p cs = (runs q cs).flatMap (runs p) := by
  have hnot : ∀ {c}, q c = false → p c = false := fun {c} hc => by
    by_contra hp
    simp [hpq c (by simpa using hp)] at hc
  induction cs using run_induction q with
  | nil => rfl
  | skip c cs hc ih => rw [runs_skip hc, runs_skip (hnot hc), ih]
  | append run after hne hrun hafter ih =>
    rw [runs_append hne hrun hafter, List.flatMap_cons, ← ih]
    cases after with
    | nil => simp [runs]
    | cons c after =>
      have hc := hnot (hafter c rfl)
      rw [runs_append_cons hc, runs_skip hc]

theorem runs_intercalate (hc : p c = false) :
    ∀ parts : List (List Char), runs p ([c].intercalate parts) = parts.flatMap (runs p)
  | [] => rfl
  | [part] => by simp
  | part :: next :: parts => by
    rw [List.intercalate_cons_cons, List.append_assoc, List.singleton_append, runs_append_cons hc,
      runs_intercalate hc (next :: parts)]
    rfl

end

/-! ### White space and words -/

theorem not_inRanges_of_apart {left right : List CodeRange}
    (h : ∀ l ∈ left, ∀ r ∈ right, l.2 < r.1 ∨ r.2 < l.1) {code : Nat}
    (hcode : inRanges left code = true) : inRanges right code = false := by
  simp only [inRanges, List.any_eq_true, List.any_eq_false, Bool.and_eq_true, decide_eq_true_iff] at *
  obtain ⟨l, hl, hfirst, hlast⟩ := hcode
  rintro r hr ⟨hfirst', hlast'⟩
  rcases h l hl r hr with hlt | hlt <;> omega

theorem not_isSpace_of_isWordChar {c : Char} (h : isWordChar c = true) : (!isSpace c) = true := by
  -- as one Boolean, since the kernel takes long to decide the two quantifiers
  have hapart : (wordRanges.all fun l => spaceRanges.all fun r =>
      Nat.blt l.2 r.1 || Nat.blt r.2 l.1) = true := by decide +kernel
  simp only [List.all_eq_true, Bool.or_eq_true, Nat.blt_eq] at hapart
  rw [Bool.not_eq_true', isSpace]
  exact not_inRanges_of_apart hapart h

end Text

/-! ### Tokens -/

section

variable {t text : String}

/-- A maximal run of word characters that is short enough to be a token. -/
def IsToken (t text : String) : Prop :=
  Text.IsRun Text.isWordChar t.toList text.toList ∧ t.utf8ByteSize < maxTokenBytes

theorem mem_rawTokens_iff_runs : t ∈ rawTokens text ↔
    t.toList ∈ Text.runs Text.isWordChar text.toList ∧ t.utf8ByteSize < maxTokenBytes := by
  simp only [rawTokens, List.mem_filter, List.mem_map, decide_eq_true_iff]
  constructor
  · rintro ⟨⟨run, hrun, rfl⟩, hsize⟩
    exact ⟨by rwa [String.toList_ofList], hsize⟩
  · rintro ⟨hrun, hsize⟩
    exact ⟨⟨_, hrun, String.ofList_toList⟩, hsize⟩

theorem mem_rawTokens : t ∈ rawTokens text ↔ IsToken t text := by
  rw [mem_rawTokens_iff_runs, Text.mem_runs, IsToken]

theorem IsToken.eq {u : String} (h : IsToken t text) (hu : IsToken u t) : u = t := by
  obtain ⟨⟨_, _, _, hne, hrun, _⟩, -⟩ := h
  have hmem := Text.mem_runs.mpr hu.1
  have hruns : Text.runs Text.isWordChar (t.toList ++ []) = _ := Text.runs_append hne hrun (by simp)
  rw [List.append_nil] at hruns
  rw [hruns] at hmem
  exact String.toList_inj.mp (by simpa [Text.runs] using hmem)

/-- The tokens of a text are those of its words. -/
theorem mem_rawTokens_words : (∃ word ∈ Text.words text, t ∈ rawTokens word) ↔ t ∈ rawTokens text := by
  simp only [mem_rawTokens_iff_runs, Text.words, List.mem_map, exists_exists_and_eq_and,
    String.toList_ofList, ← and_assoc, exists_and_right, ← List.mem_flatMap,
    ← Text.runs_flatMap fun _ => Text.not_isSpace_of_isWordChar]

theorem mem_foldl_distinct {word : String} : ∀ {words seen : List String},
    word ∈ words.foldl (fun seen word => if seen.contains word then seen else seen ++ [word]) seen ↔
      word ∈ seen ∨ word ∈ words
  | [], seen => by simp
  | first :: words, seen => by
    rw [List.foldl_cons, mem_foldl_distinct, List.mem_cons]
    by_cases h : first ∈ seen
    · rw [if_pos (by simpa using h)]
      constructor
      · exact Or.imp_right Or.inr
      · rintro (hseen | rfl | hwords)
        exacts [Or.inl hseen, Or.inl h, Or.inr hwords]
    · rw [if_neg (by simpa using h), List.mem_append, List.mem_singleton, or_assoc]

/-- The tokens of several texts are those of their words when these are joined, each once. -/
theorem mem_rawTokens_joinWords {texts : List String} :
    t ∈ rawTokens (joinWords texts) ↔ ∃ text ∈ texts, t ∈ rawTokens text := by
  have hspace : Text.isWordChar ' ' = false := by
    by_contra hword
    exact absurd (Text.not_isSpace_of_isWordChar (by simpa using hword)) (by decide)
  have hjoined : t ∈ rawTokens (joinWords texts) ↔
      ∃ word ∈ texts.flatMap Text.words, t ∈ rawTokens word := by
    simp only [mem_rawTokens_iff_runs, joinWords, String.toList_intercalate, ← and_assoc,
      exists_and_right]
    rw [show " ".toList = [' '] from rfl, Text.runs_intercalate hspace, List.flatMap_map,
      List.mem_flatMap]
    simp only [mem_foldl_distinct, List.not_mem_nil, false_or]
  rw [hjoined]
  constructor
  · rintro ⟨word, hword, ht⟩
    obtain ⟨text, htext, hword⟩ := List.mem_flatMap.mp hword
    exact ⟨text, htext, mem_rawTokens_words.mp ⟨word, hword, ht⟩⟩
  · rintro ⟨text, htext, ht⟩
    obtain ⟨word, hword, ht⟩ := mem_rawTokens_words.mpr ht
    exact ⟨word, List.mem_flatMap.mpr ⟨text, htext, hword⟩, ht⟩

end

/-! ### Lower case -/

namespace Text

/-- Behind the characters `before`, the last first, a capital sigma stands at the end of a word. -/
def FinalSigmaAfter (before cs : List Char) : Prop :=
  ∃ inner after, cs = inner ++ 'Σ' :: after ∧ isFinal (inner.reverse ++ before) after = true

/-- A capital sigma stands at the end of a word. -/
def HasFinalSigma (t : String) : Prop :=
  FinalSigmaAfter [] t.toList

theorem FinalSigmaAfter.cons {before cs : List Char} {c : Char} (h : FinalSigmaAfter (c :: before) cs) :
    FinalSigmaAfter before (c :: cs) := by
  obtain ⟨inner, after, rfl, hfinal⟩ := h
  exact ⟨c :: inner, after, rfl, by simpa using hfinal⟩

theorem not_hasFinalSigma {t : String} (h : 'Σ' ∉ t.toList) : ¬ HasFinalSigma t := fun ⟨_, _, ht, _⟩ =>
  h (by simp [ht])

theorem lowerFrom_eq_flatMap : ∀ {before cs : List Char}, ¬ FinalSigmaAfter before cs →
    lowerFrom before cs = cs.flatMap lowerChar
  | _, [], _ => rfl
  | before, c :: cs, h => by
    have himage : (if c = 'Σ' then [if isFinal before cs then 'ς' else 'σ'] else lowerChar c) =
        lowerChar c := by
      split_ifs with hc hfinal
      · exact absurd ⟨[], cs, by rw [hc]; rfl, hfinal⟩ h
      · rw [hc]
        decide
      · rfl
    rw [lowerFrom, himage, List.flatMap_cons, lowerFrom_eq_flatMap fun htail => h htail.cons]

theorem finalSigma_mem_lowerFrom : ∀ {before cs : List Char}, FinalSigmaAfter before cs →
    'ς' ∈ lowerFrom before cs
  | before, cs, ⟨[], after, hcs, hfinal⟩ => by
    subst hcs
    simp only [List.reverse_nil, List.nil_append] at hfinal
    simp [lowerFrom, hfinal]
  | before, cs, ⟨c :: inner, after, hcs, hfinal⟩ => by
    subst hcs
    rw [List.cons_append, lowerFrom]
    exact List.mem_append_right _
      (finalSigma_mem_lowerFrom ⟨inner, after, rfl, by simpa using hfinal⟩)

theorem eq_finalSigma_of_ofNat {n : Nat} (h : Char.ofNat n = 'ς') : n = 'ς'.toNat := by
  by_cases hvalid : n.isValidChar
  · have hcode : Char.ofNatAux n hvalid = 'ς' := (dif_pos hvalid).symm.trans h
    exact congrArg Char.toNat hcode
  · exact absurd ((dif_neg hvalid).symm.trans h) (by decide)

/-- No run of letters has a final sigma among its lower case. -/
theorem lower?_ne_finalSigma {run : CaseRun} (hrun : run ∈ caseRuns) (code : Nat) :
    run.lower? code ≠ some 'ς'.toNat := by
  have hapart : ∀ run ∈ caseRuns,
      'ς'.toNat < run.image ∨ run.image + (run.last - run.first) < 'ς'.toNat := by decide +kernel
  unfold CaseRun.lower?
  split_ifs with hcode
  · rw [ne_eq, Option.some.injEq]
    rcases hapart run hrun with hlt | hlt <;> omega
  · simp

theorem eq_of_finalSigma_mem_lowerChar {c : Char} (h : 'ς' ∈ lowerChar c) : c = 'ς' := by
  unfold lowerChar at h
  split_ifs at h with hlatin hdotted
  · have hplain : ∀ code < 0x80, (Char.ofNat code).toLower ≠ 'ς' := by decide
    have hne := hplain c.toNat hlatin
    rw [Char.ofNat_toNat] at hne
    exact absurd (List.mem_singleton.mp h).symm hne
  · exact absurd h (by decide)
  · rw [List.mem_singleton] at h
    cases hfound : caseRuns.findSome? fun run => run.lower? c.toNat with
    | none => simpa [hfound] using h.symm
    | some n =>
      rw [hfound, Option.map_some, Option.getD_some] at h
      obtain ⟨run, hrun, hlower⟩ := List.exists_of_findSome?_eq_some hfound
      rw [eq_finalSigma_of_ofNat h.symm] at hlower
      exact absurd hlower (lower?_ne_finalSigma hrun _)

/-- The two forms of lower case are the same if no capital sigma stands at the end of a word. -/
theorem lower_eq_lowerEach {t : String} (h : ¬ HasFinalSigma t) : lower t = lowerEach t := by
  rw [lower, lowerEach, lowerFrom_eq_flatMap h]

theorem finalSigma_mem_lower {t : String} (h : HasFinalSigma t) : 'ς' ∈ (lower t).toList := by
  rw [lower, String.toList_ofList]
  exact finalSigma_mem_lowerFrom h

/-- Lowered by itself, no other character becomes a final sigma. -/
theorem finalSigma_notMem_lowerEach {t : String} (h : 'ς' ∉ t.toList) : 'ς' ∉ (lowerEach t).toList := by
  rw [lowerEach, String.toList_ofList, List.mem_flatMap]
  rintro ⟨c, hc, hlower⟩
  exact h (eq_of_finalSigma_mem_lowerChar hlower ▸ hc)

end Text
end Codebook
