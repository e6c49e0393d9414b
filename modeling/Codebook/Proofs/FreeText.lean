/-
# Free text

A search finds an entity if each token of what is searched for begins some word of the entity. The words
of an entity are the tokens in the texts of its searchable fields. Lower case is that of a whole text on
the one side and of each character on the other, so a token with a capital sigma at the end of a word
asks for a final sigma, and misses the word that it was copied from.

Key definitions: `Schema.HasWord`, `Schema.Meets`.
Key theorems: `Schema.mem_tokens`, `Facts.found_iff`, `Criteria.search_finds_words`.
-/
import Codebook.Proofs.Defaults
import Codebook.Proofs.Paging
import Codebook.Proofs.Words

namespace Codebook

section

variable {α : Type} [Indexed α] {s : Schema} {a : α} {d : Document} {zone : Instant.Zone}
  {c : Criteria} {text : String}

/-- A word of an entity is a token in the text of one of its searchable fields. -/
def Schema.HasWord (s : Schema) (a : α) (w : String) : Prop :=
  ∃ f ∈ s.searchable, ∃ text, searchText (f.read a) = some text ∧ IsToken w text

/-- Each token of a text begins some word of an entity, up to case. -/
def Schema.Meets (s : Schema) (a : α) (lower : String → String) (text : String) : Prop :=
  ∀ t, IsToken t text → ∃ w, s.HasWord a w ∧ (lower t).toList <+: (Text.lowerEach w).toList

/-- The free text of an entity has the tokens of the words in its fields. -/
theorem Schema.mem_tokens {token : String} :
    token ∈ (s.facts a).tokens ↔ ∃ w, s.HasWord a w ∧ Text.lowerEach w = token := by
  have hword : ∀ w, w ∈ rawTokens (s.searchTextOf a) ↔ s.HasWord a w := fun w => by
    rw [Schema.searchTextOf, mem_rawTokens_joinWords]
    constructor
    · rintro ⟨text, htext, hw⟩
      obtain ⟨f, hf, htext⟩ := List.mem_filterMap.mp htext
      exact ⟨f, hf, text, htext, mem_rawTokens.mp hw⟩
    · rintro ⟨f, hf, text, htext, hw⟩
      exact ⟨text, List.mem_filterMap.mpr ⟨f, hf, htext⟩, mem_rawTokens.mpr hw⟩
  exact List.mem_map.trans (exists_congr fun w => and_congr_left' (hword w))

/-- Text is asked for by its tokens. -/
theorem mem_words_tokens {token : String} :
    token ∈ (Text.words text).flatMap tokens ↔ ∃ t, IsToken t text ∧ Text.lower t = token := by
  rw [List.mem_flatMap]
  constructor
  · rintro ⟨word, hword, htoken⟩
    obtain ⟨t, ht, rfl⟩ := List.mem_map.mp htoken
    exact ⟨t, mem_rawTokens.mp (mem_rawTokens_words.mp ⟨word, hword, ht⟩), rfl⟩
  · rintro ⟨t, ht, rfl⟩
    obtain ⟨word, hword, ht⟩ := mem_rawTokens_words.mpr (mem_rawTokens.mpr ht)
    exact ⟨word, hword, List.mem_map_of_mem ht⟩

/-- Free text without tokens is found everywhere. -/
theorem Facts.found_iff {x : Facts} : (x.found? text).getD true = true ↔
    ∀ t, IsToken t text → ∃ token ∈ x.tokens, (Text.lower t).toList <+: token.toList := by
  have hall : (x.found? text).getD true = true ↔ ∀ wanted ∈ (Text.words text).flatMap Codebook.tokens,
      ∃ token ∈ x.tokens, wanted.toList <+: token.toList := by
    unfold Facts.found?
    simp only
    split_ifs with hempty
    · simp [List.isEmpty_iff.mp hempty]
    · simp only [Option.getD_some, List.all_eq_true, List.any_eq_true, List.isPrefixOf_iff_prefix]
  rw [hall]
  constructor
  · exact fun h t ht => h _ (mem_words_tokens.mpr ⟨t, ht, rfl⟩)
  · rintro h wanted hwanted
    obtain ⟨t, ht, rfl⟩ := mem_words_tokens.mp hwanted
    exact h t ht

theorem Schema.found_iff_meets :
    ((s.facts a).found? text).getD true = true ↔ s.Meets a Text.lower text := by
  rw [Facts.found_iff]
  refine forall₂_congr fun t _ => ⟨?_, ?_⟩
  · rintro ⟨token, htoken, hbegins⟩
    obtain ⟨w, hw, rfl⟩ := Schema.mem_tokens.mp htoken
    exact ⟨w, hw, hbegins⟩
  · rintro ⟨w, hw, hbegins⟩
    exact ⟨_, Schema.mem_tokens.mpr ⟨w, hw, rfl⟩, hbegins⟩

/-- A token that ends a word with a capital sigma is missed by words without a final sigma. -/
theorem Schema.not_meets_of_finalSigma {t : String} (ht : IsToken t text) (hsigma : Text.HasFinalSigma t)
    (hplain : ∀ w, s.HasWord a w → 'ς' ∉ w.toList) : ¬ s.Meets a Text.lower text := by
  intro hmeets
  obtain ⟨w, hw, hbegins⟩ := hmeets t ht
  exact Text.finalSigma_notMem_lowerEach (hplain w hw) (hbegins.mem (Text.finalSigma_mem_lower hsigma))

theorem Schema.meets_congr {lower lower' : String → String}
    (h : ∀ t, IsToken t text → lower t = lower' t) : s.Meets a lower text ↔ s.Meets a lower' text :=
  forall₂_congr fun t ht => by rw [h t ht]

/-- A word of an entity is met by the entity. -/
theorem Schema.HasWord.meets (h : s.HasWord a text) : s.Meets a Text.lowerEach text := by
  obtain ⟨f, hf, x, hx, hword⟩ := h
  intro t ht
  rw [hword.eq ht]
  exact ⟨text, ⟨f, hf, x, hx, hword⟩, List.prefix_rfl⟩

/-- Free text never keeps criteria from being compiled. -/
theorem Criteria.compile_of_search {q : Compiled} (search : Option String)
    (hq : c.compile s zone = .ok q) : ∃ q, { c with search := search }.compile s zone = .ok q := by
  obtain ⟨_, hvalid, -⟩ := bind_eq_ok.mp hq
  obtain ⟨hquery, hsort, hactivity⟩ := compile_ok hq
  obtain ⟨filters, hfilters, -⟩ := bind_eq_ok.mp hquery
  have hcount : -1 ≤ c.count := by
    by_contra hcount
    rw [validate, if_neg hcount] at hvalid
    cases hvalid
  have hquery' : { c with search := search }.query s zone = .ok _ :=
    bind_eq_ok.mpr ⟨filters, hfilters, rfl⟩
  exact ⟨⟨_, q.sort, q.activity⟩, compile_of_parts (c := { c with search := search }) hcount hquery'
    hsort hactivity⟩

theorem Criteria.selects_search (h : Schema.describe α = .ok s) (hsearch : c.search = some text)
    (hfilters : c.filters = []) (hjoin : c.searchCondition ≠ .not) (hall : c.activity.admitsAll = true)
    {q : Compiled} (hq : c.compile s zone = .ok q) (hd : Document.encode s a = .ok d) :
    q.executable.selects d = ((s.facts a).found? text).getD true := by
  have hx := (Schema.describes_of_describe h).shows hd
  obtain ⟨hquery, -, hactivity⟩ := Criteria.compile_ok hq
  have hvisible : q.activity = none := by
    rw [Criteria.activityQuery, hall] at hactivity
    exact (Except.ok.inj hactivity).symm
  have houtcome : c.outcome? zone (s.facts a) = (s.facts a).found? text := by
    rw [Criteria.outcome?, hsearch, hfilters, Option.bind_some, Test.folded]
    cases (s.facts a).found? text with
    | none => rfl
    | some b =>
      cases hjoined : c.searchCondition with
      | not => exact absurd hjoined hjoin
      | and => rfl
      | or => rfl
  rw [Compiled.executable, hvisible, Criteria.selects_query hx hquery, houtcome]

/-- **Free text finds what was indexed.** With a text to search for, criteria without filters that show
every last change are compiled just as without it. Of the documents of entities they select those whose
entities have a word beginning with the lower case of each token of the text. As long as no token has a
capital sigma at the end of a word, this is the lower case in which words are indexed, so every word that
was indexed finds its entity, typed as it stands. A token with such a sigma finds no entity without a
final sigma. -/
theorem Criteria.search_finds_words (h : Schema.describe α = .ok s) (hfilters : c.filters = [])
    (hjoin : c.searchCondition ≠ .not) (hall : c.activity.admitsAll = true) {q₀ : Compiled}
    (hc : c.compile s zone = .ok q₀) (text : String) :
    ∃ q, { c with search := some text }.compile s zone = .ok q ∧
      ∀ (a : α) d, Document.encode s a = .ok d →
        (q.executable.selects d = true ↔ s.Meets a Text.lower text) ∧
        ((∀ t, IsToken t text → ¬ Text.HasFinalSigma t) →
          (q.executable.selects d = true ↔ s.Meets a Text.lowerEach text)) ∧
        (s.HasWord a text → ¬ Text.HasFinalSigma text → q.executable.selects d = true) ∧
        ∀ t, IsToken t text → Text.HasFinalSigma t → (∀ w, s.HasWord a w → 'ς' ∉ w.toList) →
          q.executable.selects d = false := by
  obtain ⟨q, hq⟩ := Criteria.compile_of_search (some text) hc
  refine ⟨q, hq, fun a d hd => ?_⟩
  have hexact : q.executable.selects d = true ↔ s.Meets a Text.lower text := by
    rw [Criteria.selects_search (c := { c with search := some text }) h rfl hfilters hjoin hall hq hd,
      Schema.found_iff_meets]
  have hplain : (∀ t, IsToken t text → ¬ Text.HasFinalSigma t) →
      (q.executable.selects d = true ↔ s.Meets a Text.lowerEach text) := fun hplain =>
    hexact.trans (Schema.meets_congr fun t ht => Text.lower_eq_lowerEach (hplain t ht))
  refine ⟨hexact, hplain, fun hword hsigma => ?_, fun t ht hsigma hwords => ?_⟩
  · refine (hplain fun t ht => ?_).mpr hword.meets
    obtain ⟨f, hf, x, hx, htoken⟩ := hword
    rwa [htoken.eq ht]
  · rw [← Bool.not_eq_true, hexact]
    exact Schema.not_meets_of_finalSigma ht hsigma hwords

end

/-- An item with a note. -/
def notedItem (id note : String) : Item :=
  { countedItem id none with note := some note }

/-- The field of an item with its note. -/
def noteField : IndexedField :=
  ⟨"note", "note", .string, ⟨true, false, false⟩, []⟩

/-- All items, whatever their last changes are. -/
def everyItem : Criteria where
  activity := .all

theorem Criteria.search_finds_words_of_items :
    ∃ s q d, Schema.describe Item = .ok s ∧
      { everyItem with search := some "Würde" }.compile s .universal = .ok q ∧
      Document.encode s (notedItem "a" "Recht,Würde und Ehre") = .ok d ∧
      q.executable.selects d = true := by
  obtain ⟨q, hq, hselects⟩ := Criteria.search_finds_words (α := Item) (c := everyItem) rfl rfl
    (by decide) (by decide) (rfl : everyItem.compile _ .universal = .ok _) "Würde"
  refine ⟨_, q, _, rfl, hq, rfl, ?_⟩
  have hword : IsToken "Würde" "Recht,Würde und Ehre" := mem_rawTokens.mp (by decide +kernel)
  obtain ⟨-, -, hindexed, -⟩ := hselects (notedItem "a" "Recht,Würde und Ehre") _ rfl
  exact hindexed ⟨noteField, by decide +kernel, _, rfl, hword⟩ (Text.not_hasFinalSigma (by decide))

/-- A word in capitals that ends in a sigma does not find itself. -/
theorem Criteria.indexed_word_missed :
    ∃ s q d, Schema.describe Item = .ok s ∧
      { everyItem with search := some "ΟΔΟΣ" }.compile s .universal = .ok q ∧
      Document.encode s (notedItem "a" "ΟΔΟΣ") = .ok d ∧
      s.HasWord (notedItem "a" "ΟΔΟΣ") "ΟΔΟΣ" ∧ q.executable.selects d = false := by
  refine ⟨_, _, _, rfl, rfl, rfl, ?_, by decide +kernel⟩
  have hword : IsToken "ΟΔΟΣ" "ΟΔΟΣ" := mem_rawTokens.mp (by decide +kernel)
  exact ⟨noteField, by decide +kernel, _, rfl, hword⟩

end Codebook
