/-
# Instants as text and back

The text of an instant is read as the same instant, leap seconds included: a leap second is written
as second 60, which is read as second 59 with the nanoseconds past a thousand million. Numbers are
written with as many digits as are read at most, so no number runs into the next one, and a year
that needs more of them is written with its sign; a fraction is written without some of its zeros,
which are put back.

What else is read is such an instant too: an offset is a number of whole minutes, so a leap second
stays the last one of its minute.

Key definitions: `Instant.Proper`.
Key theorems: `Instant.readNumber_padded`, `Instant.readYear_yearText`,
`Instant.readFraction_fractionText`, `Instant.readDate_yearText`, `Instant.readTime_padded`,
`Instant.read_toText`, `Instant.proper_of_read`.
-/
import Codebook.Proofs.Calendar
import Codebook.Proofs.Directory

namespace Codebook

/-! ### Runs of digits -/

namespace Number

/-- A number that has no more digits than a width is padded to this width. -/
theorem length_padded {width n : Nat} (hwidth : 0 < width) (hn : n < 10 ^ width) :
    (padded width n).toList.length = width := by
  have hle : (Nat.toDigits 10 n).length ≤ width :=
    (Nat.length_toDigits_le_iff (by decide) hwidth).mpr hn
  have hlength : (toString n).length = (Nat.toDigits 10 n).length := by
    rw [← String.length_toList, Nat.toString_eq_repr, Nat.toList_repr]
  rw [toList_padded, hlength, List.length_append, List.length_replicate]
  omega

/-- It is longer only if the number has more digits. -/
theorem length_padded_le {width places n : Nat} (hplaces : 0 < places) (hn : n < 10 ^ places) :
    (padded width n).toList.length ≤ max width places := by
  have hle : (Nat.toDigits 10 n).length ≤ places :=
    (Nat.length_toDigits_le_iff (by decide) hplaces).mpr hn
  have hlength : (toString n).length = (Nat.toDigits 10 n).length := by
    rw [← String.length_toList, Nat.toString_eq_repr, Nat.toList_repr]
  rw [toList_padded, hlength, List.length_append, List.length_replicate]
  omega

theorem splitDigits_append {cs rest : List Char} (hcs : ∀ c ∈ cs, c.isDigit)
    (hrest : splitDigits rest = ([], rest)) :
    splitDigits (cs ++ rest) = (cs.map fun c => c.toNat - 48, rest) := by
  induction cs with
  | nil => exact hrest
  | cons c cs ih =>
    have hc := digit?_of_isDigit (hcs c List.mem_cons_self)
    have htail := ih fun d hd => hcs d (List.mem_cons_of_mem _ hd)
    rw [List.cons_append, splitDigits, hc]
    simp only [htail, List.map_cons]

theorem ofDigits_zeros (ds : List Nat) (k : Nat) :
    ofDigits (ds ++ List.replicate k 0) = ofDigits ds * 10 ^ k := by
  induction k with
  | zero => simp
  | succ k ih =>
    rw [List.replicate_succ', ← List.append_assoc, ofDigits, List.foldl_append]
    rw [ofDigits] at ih
    rw [ih, Nat.pow_succ]
    show 10 * (ofDigits ds * 10 ^ k) + 0 = _
    rw [Nat.add_zero, Nat.mul_comm 10, Nat.mul_assoc]

theorem ofDigits_padded (width n : Nat) :
    ofDigits ((padded width n).toList.map fun c => c.toNat - 48) = n := by
  rw [ofDigits_map, ofDigitChars_padded]

end Number

namespace Instant

open Number

theorem takeDigits_append : ∀ {cs : List Char}, (∀ c ∈ cs, c.isDigit) → ∀ rest,
    takeDigits cs.length (cs ++ rest) = (cs.map fun c => c.toNat - 48, rest)
  | [], _, rest => by cases rest <;> rfl
  | c :: cs, h, rest => by
    have hc := digit?_of_isDigit (h c List.mem_cons_self)
    have hrest := takeDigits_append (fun d hd => h d (List.mem_cons_of_mem _ hd)) rest
    rw [List.length_cons, List.cons_append, takeDigits, hc]
    simp only [hrest, List.map_cons]

/-! ### Parts -/

theorem dropSpace_cons {c : Char} (hc : Text.isSpace c = false) (rest : List Char) :
    Text.dropSpace (c :: rest) = c :: rest := by
  simp [Text.dropSpace, hc]

/-- A padded number begins with a digit. -/
theorem padded_cons (width n : Nat) : ∃ c cs, (padded width n).toList = c :: cs ∧ c.isDigit := by
  cases h : (padded width n).toList with
  | nil => exact absurd h (padded_ne_nil width n)
  | cons c cs => exact ⟨c, cs, rfl, isDigit_of_mem_padded (h ▸ List.mem_cons_self)⟩

theorem dropSpace_padded (width n : Nat) (rest : List Char) :
    Text.dropSpace ((padded width n).toList ++ rest) = (padded width n).toList ++ rest := by
  obtain ⟨c, cs, h, hc⟩ := padded_cons width n
  rw [h, List.cons_append, dropSpace_cons (IndexDirectory.isSpace_of_isDigit hc)]

/-- **A padded number reads back**, whatever follows it. -/
theorem readNumber_padded {width n : Nat} (hwidth : 0 < width) (hn : n < 10 ^ width)
    (rest : List Char) : readNumber width ((padded width n).toList ++ rest) = some (n, rest) := by
  have htake : takeDigits width ((padded width n).toList ++ rest) =
      ((padded width n).toList.map fun c => c.toNat - 48, rest) := by
    have hmem : ∀ c ∈ (padded width n).toList, c.isDigit := fun _ => isDigit_of_mem_padded
    have hdigits := takeDigits_append hmem rest
    rwa [length_padded hwidth hn] at hdigits
  have hvalue := ofDigits_padded width n
  rw [readNumber, dropSpace_padded, htake]
  obtain ⟨c, cs, h, -⟩ := padded_cons width n
  rw [h, List.map_cons] at hvalue ⊢
  simp only [hvalue]

theorem readMark_cons {mark : Char} (h : Text.isSpace mark = false) (rest : List Char) :
    readMark mark (mark :: rest) = some rest := by
  rw [readMark, dropSpace_cons h]
  simp only [if_true]

theorem readYear_padded {year : Nat} (h : year < 10000) (rest : List Char) :
    readYear ((padded 4 year).toList ++ rest) = some ((year : Int), rest) := by
  have hnumber := readNumber_padded (by decide : 0 < 4) h rest
  obtain ⟨c, cs, hcs, hc⟩ := padded_cons 4 year
  rw [readYear, dropSpace_padded]
  rw [hcs, List.cons_append] at hnumber ⊢
  split
  · rename_i heq
    obtain ⟨rfl, -⟩ := List.cons.inj heq
    exact absurd hc (by decide)
  · rename_i heq
    obtain ⟨rfl, -⟩ := List.cons.inj heq
    exact absurd hc (by decide)
  · rw [hnumber]
    rfl

/-- All digits after a sign belong to the year. -/
theorem signed_padded (n : Nat) (f : Int → Int) {rest : List Char}
    (hrest : splitDigits rest = ([], rest)) :
    readYear.signed ((padded 4 n).toList ++ rest) f = some (f n, rest) := by
  have hdigits : ∀ c ∈ (padded 4 n).toList, c.isDigit := fun _ => isDigit_of_mem_padded
  have hsplit := splitDigits_append hdigits hrest
  have hvalue := ofDigits_padded 4 n
  obtain ⟨c, cs, hcs, -⟩ := padded_cons 4 n
  rw [readYear.signed, hsplit]
  rw [hcs, List.map_cons] at hvalue ⊢
  simp only [hvalue]

/-- **The text of a year reads back**, with its sign if it has one. -/
theorem readYear_yearText (year : Int) {rest : List Char} (hrest : splitDigits rest = ([], rest)) :
    readYear ((yearText year).toList ++ rest) = some (year, rest) := by
  unfold yearText
  by_cases hplain : 0 ≤ year ∧ year ≤ 9999
  · rw [if_pos hplain, readYear_padded (by omega), Int.toNat_of_nonneg hplain.1]
  have hminus : "-".toList = ['-'] := rfl
  have hplus : "+".toList = ['+'] := rfl
  rw [if_neg hplain, String.toList_append, List.append_assoc]
  by_cases hneg : year < 0
  · rw [if_pos hneg, hminus, List.singleton_append, readYear, dropSpace_cons (by decide)]
    simp only [signed_padded _ _ hrest]
    congr 2
    omega
  · rw [if_neg hneg, hplus, List.singleton_append, readYear, dropSpace_cons (by decide)]
    simp only [signed_padded _ _ hrest]
    congr 2
    omega

theorem readDate_yearText {year : Int} {month day : Nat} (hmonth : month < 100) (hday : day < 100)
    {date : Date} (hdate : Date.ofParts? year month day = some date) (rest : List Char) :
    readDate ((yearText year).toList ++ '-' :: ((padded 2 month).toList ++ '-' ::
      ((padded 2 day).toList ++ rest))) = some (date, rest) := by
  have hmark : Text.isSpace '-' = false := by decide
  have hrest : ∀ rest, splitDigits ('-' :: rest) = ([], '-' :: rest) := fun rest => by
    rw [splitDigits, show Number.digit? '-' = none by decide]
  rw [readDate, readYear_yearText year (hrest _)]
  simp only [Option.bind_eq_bind, Option.bind_some, readMark_cons hmark]
  rw [readNumber_padded (by decide) hmonth]
  simp only [Option.bind_some, readMark_cons hmark]
  rw [readNumber_padded (by decide) hday]
  simp only [Option.bind_some, hdate]
  rfl

/-- A fraction reads back without the zeros that were left away. -/
theorem readFraction_places {places n : Nat} (hpos : 0 < places) (hplaces : places ≤ 9)
    (hn : n < 10 ^ places) {rest : List Char} (hrest : splitDigits rest = ([], rest)) :
    readFraction ('.' :: ((padded places n).toList ++ rest)) =
      some (n * 10 ^ (9 - places), rest) := by
  have hdigits : ∀ c ∈ (padded places n).toList, c.isDigit := fun _ => isDigit_of_mem_padded
  have hsplit := splitDigits_append hdigits hrest
  have hlength : ((padded places n).toList.map fun c => c.toNat - 48).length = places := by
    rw [List.length_map, length_padded hpos hn]
  have hvalue := ofDigits_padded places n
  obtain ⟨c, cs, hcs, -⟩ := padded_cons places n
  have htake : (((padded places n).toList.map fun c : Char => c.toNat - 48) ++ List.replicate 9 0).take 9 =
      ((padded places n).toList.map fun c : Char => c.toNat - 48) ++ List.replicate (9 - places) 0 := by
    rw [List.take_append, hlength, List.take_of_length_le (by omega), List.take_replicate,
      Nat.min_eq_left (by omega)]
  rw [readFraction, hsplit]
  rw [hcs] at htake hvalue ⊢
  simp only [List.map_cons] at htake hvalue ⊢
  rw [htake, ofDigits_zeros, hvalue]

/-- **The fraction of a second reads back.** -/
theorem readFraction_fractionText {nanos : Nat} (h : nanos < 1000000000) {c : Char}
    (hc : digit? c = none) (hpoint : c ≠ '.') (rest : List Char) :
    readFraction ((fractionText nanos).toList ++ c :: rest) = some (nanos, c :: rest) := by
  have hrest : splitDigits (c :: rest) = ([], c :: rest) := by
    simp only [splitDigits, hc]
  have hpointed : ∀ s : String, ("." ++ s).toList = '.' :: s.toList := fun s => String.toList_append ..
  unfold fractionText
  by_cases hzero : nanos = 0
  · rw [if_pos hzero, hzero]
    show readFraction (c :: rest) = _
    unfold readFraction
    split
    · rename_i heq
      exact absurd (List.cons.inj heq).1 hpoint
    · rfl
  rw [if_neg hzero]
  by_cases hmillis : nanos % 1000000 = 0
  · rw [if_pos hmillis, hpointed, List.cons_append,
      readFraction_places (by decide) (by decide) (by omega) hrest]
    congr 2
    omega
  rw [if_neg hmillis]
  by_cases hmicros : nanos % 1000 = 0
  · rw [if_pos hmicros, hpointed, List.cons_append,
      readFraction_places (by decide) (by decide) (by omega) hrest]
    congr 2
    omega
  · rw [if_neg hmicros, hpointed, List.cons_append,
      readFraction_places (by decide) (by decide) (by omega) hrest]
    congr 2
    omega

theorem readTime_padded {hour minute second nanos : Nat} (hhour : hour < 24) (hminute : minute < 60)
    (hsecond : second ≤ 60) (hnanos : nanos < 1000000000) {c : Char} (hc : digit? c = none)
    (hpoint : c ≠ '.') (rest : List Char) :
    readTime ((padded 2 hour).toList ++ ':' :: ((padded 2 minute).toList ++ ':' ::
      ((padded 2 second).toList ++ ((fractionText nanos).toList ++ c :: rest)))) =
      some (if second = 60 then (hour * 3600 + minute * 60 + 59, nanos + 1000000000)
        else (hour * 3600 + minute * 60 + second, nanos), c :: rest) := by
  have hmark : Text.isSpace ':' = false := by decide
  rw [readTime, readNumber_padded (by decide) (by omega)]
  simp only [Option.bind_eq_bind, Option.bind_some, readMark_cons hmark]
  rw [readNumber_padded (by decide) (by omega)]
  simp only [Option.bind_some, readMark_cons hmark]
  rw [readNumber_padded (by decide) (by omega)]
  simp only [Option.bind_some, readFraction_fractionText hnanos hc hpoint]
  rw [if_pos ⟨hhour, hminute, hsecond⟩]
  rfl

/-! ### Instants -/

/-- A moment of a day of the calendar. Only the last second of a minute can be a leap second. -/
structure Proper (i : Instant) : Prop where
  second : i.second < daySeconds
  nanos : i.nanos < 1000000000 ∨ i.second % 60 = 59 ∧ i.nanos < 2000000000
  year : -262143 ≤ (Date.ofDayNumber i.day).year ∧ (Date.ofDayNumber i.day).year ≤ 262142

theorem addSeconds_zero {i : Instant} (h : i.second < daySeconds) : i.addSeconds (-0) = i := by
  have hlength : ((daySeconds : Nat) : Int) = 86400 := rfl
  have hseconds : i.seconds + -0 = i.day * 86400 + i.second := by
    rw [seconds, hlength, Int.neg_zero, Int.add_zero]
  have hlt : i.second < 86400 := h
  have hday : (i.day * 86400 + (i.second : Int)) / 86400 = i.day := by omega
  have hrest : (i.day * 86400 + (i.second : Int)) % 86400 = i.second := by omega
  rw [addSeconds, hseconds, ofSeconds, hlength, Int.fdiv_eq_ediv_of_nonneg _ (by decide),
    Int.fmod_eq_emod_of_nonneg _ (by decide), hday, hrest, Int.toNat_natCast]

/-- The characters of the text of an instant. -/
theorem toList_toText {i : Instant} {second nanos : Nat}
    (hsecond : second = i.second % 60 + if 1000000000 ≤ i.nanos then 1 else 0)
    (hnanos : nanos = if 1000000000 ≤ i.nanos then i.nanos - 1000000000 else i.nanos) :
    i.toText.toList = (yearText (Date.ofDayNumber i.day).year).toList ++ '-' ::
      ((padded 2 (Date.ofDayNumber i.day).month).toList ++ '-' ::
      ((padded 2 (Date.ofDayNumber i.day).day).toList ++ 'T' ::
      ((padded 2 (i.second / 3600)).toList ++ ':' :: ((padded 2 (i.second / 60 % 60)).toList ++ ':' ::
      ((padded 2 second).toList ++ ((fractionText nanos).toList ++ ['Z'])))))) := by
  have hmarks : "-".toList = ['-'] ∧ "T".toList = ['T'] ∧ ":".toList = [':'] ∧ "Z".toList = ['Z'] :=
    ⟨rfl, rfl, rfl, rfl⟩
  obtain ⟨hdash, hsep, hcolon, hzone⟩ := hmarks
  rw [toText, hsecond, hnanos]
  simp only [String.toList_append, hdash, hsep, hcolon, hzone, List.append_assoc, List.cons_append,
    List.nil_append]

/-- The second and the nanoseconds that are written, and what is read of them. -/
theorem Proper.clock {i : Instant} (h : i.Proper) :
    ∃ second nanos, second = (i.second % 60 + if 1000000000 ≤ i.nanos then 1 else 0) ∧
      nanos = (if 1000000000 ≤ i.nanos then i.nanos - 1000000000 else i.nanos) ∧
      second ≤ 60 ∧ nanos < 1000000000 ∧
      (if second = 60 then (i.second / 3600 * 3600 + i.second / 60 % 60 * 60 + 59, nanos + 1000000000)
        else (i.second / 3600 * 3600 + i.second / 60 % 60 * 60 + second, nanos)) =
        (i.second, i.nanos) := by
  refine ⟨_, _, rfl, rfl, ?_⟩
  by_cases hleap : 1000000000 ≤ i.nanos
  · have hlast : i.second % 60 = 59 ∧ i.nanos < 2000000000 := h.nanos.resolve_left (by omega)
    rw [if_pos hleap, if_pos hleap, hlast.1, if_pos rfl]
    refine ⟨Nat.le_refl 60, by omega, ?_⟩
    congr 1 <;> omega
  · rw [if_neg hleap, if_neg hleap, if_neg (by omega)]
    refine ⟨by omega, by omega, ?_⟩
    congr 1
    omega

/-- **The text of an instant is read as this instant.** -/
theorem read_toText {i : Instant} (h : i.Proper) : read i.toText = some i := by
  obtain ⟨hlow, hhigh⟩ := h.year
  obtain ⟨hmonth, hday⟩ := Date.ofDayNumber_lt i.day
  have hparts := Date.ofParts?_ofDayNumber hlow hhigh
  have hof : i.second < 86400 := h.second
  obtain ⟨second, nanos, hsecond, hnanos, hle, hlt, htime⟩ := h.clock
  rw [read, toList_toText hsecond hnanos, readDate_yearText hmonth hday hparts]
  simp only [Option.bind_eq_bind, Option.bind_some]
  rw [readTime_padded (by omega) (by omega) hle hlt (by decide) (by decide), htime]
  have hend : Text.dropSpace ['Z'] = ['Z'] := dropSpace_cons (by decide) []
  simp only [isSeparator, Option.bind_some, hend]
  show some (addSeconds ⟨(Date.ofDayNumber i.day).dayNumber, i.second, i.nanos⟩ (-0)) = _
  rw [Date.dayNumber_ofDayNumber, addSeconds_zero h.second]

theorem length_fractionText {nanos : Nat} (h : nanos < 1000000000) :
    (fractionText nanos).toList.length ≤ 10 := by
  have hpointed : ∀ s : String, ("." ++ s).toList = '.' :: s.toList := fun s => String.toList_append ..
  unfold fractionText
  by_cases hzero : nanos = 0
  · rw [if_pos hzero]
    exact Nat.zero_le 10
  rw [if_neg hzero]
  by_cases hmillis : nanos % 1000000 = 0
  · rw [if_pos hmillis, hpointed, List.length_cons, length_padded (by decide) (by omega)]
    decide
  rw [if_neg hmillis]
  by_cases hmicros : nanos % 1000 = 0
  · rw [if_pos hmicros, hpointed, List.length_cons, length_padded (by decide) (by omega)]
    decide
  · rw [if_neg hmicros, hpointed, List.length_cons]
    exact Nat.le_of_eq (congrArg (· + 1) (length_padded (by decide) h))

theorem length_yearText {year : Int} (hlow : -262143 ≤ year) (hhigh : year ≤ 262142) :
    (yearText year).toList.length ≤ 7 := by
  unfold yearText
  by_cases hplain : 0 ≤ year ∧ year ≤ 9999
  · rw [if_pos hplain, length_padded (by decide) (by omega)]
    decide
  · have hdigits : (padded 4 year.natAbs).toList.length ≤ max 4 6 :=
      length_padded_le (by decide) (by omega)
    rw [if_neg hplain, String.toList_append, List.length_append]
    split <;> exact Nat.add_le_add_left hdigits 1

/-- The text of an instant is short. -/
theorem length_toText {i : Instant} (h : i.Proper) : i.toText.toList.length ≤ 33 := by
  have hyear := length_yearText h.year.1 h.year.2
  obtain ⟨hmonth, hday⟩ := Date.ofDayNumber_lt i.day
  obtain ⟨second, nanos, hsecond, hnanos, hle, hlt, -⟩ := h.clock
  have hof : i.second < 86400 := h.second
  have hfraction := length_fractionText hlt
  have hpair : ∀ {n : Nat}, n < 100 → (padded 2 n).toList.length = 2 := fun hn =>
    length_padded (by decide) hn
  rw [toList_toText hsecond hnanos]
  simp only [List.length_append, List.length_cons, List.length_nil, hpair hmonth, hpair hday,
    hpair (show second < 100 by omega), hpair (show i.second / 3600 < 100 by omega),
    hpair (show i.second / 60 % 60 < 100 by omega)]
  omega

end Instant

/-! ### What is read -/

namespace Number

theorem digit?_lt {c : Char} {d : Nat} (h : digit? c = some d) : d < 10 := by
  unfold digit? at h
  split_ifs at h with hc
  have hle : c.toNat ≤ 57 := hc.2
  have hd := Option.some.inj h
  omega

theorem splitDigits_lt : ∀ {cs : List Char}, ∀ d ∈ (splitDigits cs).1, d < 10
  | [], d, hd => by simp [splitDigits] at hd
  | c :: cs, d, hd => by
    unfold splitDigits at hd
    cases hc : digit? c with
    | none => simp [hc] at hd
    | some e =>
      simp only [hc, List.mem_cons] at hd
      obtain rfl | hd := hd
      · exact digit?_lt hc
      · exact splitDigits_lt d hd

/-- A number has no more digits than those that write it. -/
theorem ofDigits_lt {ds : List Nat} (h : ∀ d ∈ ds, d < 10) : ofDigits ds < 10 ^ ds.length := by
  induction ds using List.reverseRecOn with
  | nil => decide
  | append_singleton ds d ih =>
    have hd : d < 10 := h d (by simp)
    have hds : ofDigits ds < 10 ^ ds.length := ih fun e he => h e (by simp [he])
    have hlast : ofDigits (ds ++ [d]) = 10 * ofDigits ds + d := by simp [ofDigits]
    rw [hlast, List.length_append, List.length_singleton, Nat.pow_succ]
    omega

end Number

namespace Instant

open Number

/-- A fraction is less than a second. -/
theorem readFraction_lt {cs rest : List Char} {nanos : Nat}
    (h : readFraction cs = some (nanos, rest)) : nanos < 1000000000 := by
  unfold readFraction at h
  split at h
  · rename_i cs
    have hdigits : ∀ d ∈ (splitDigits cs).1, d < 10 := splitDigits_lt
    split at h
    · cases h
    · rename_i ds _ _ hsplit
      rw [hsplit] at hdigits
      obtain ⟨rfl, -⟩ := Prod.mk.inj (Option.some.inj h)
      have hplaces : ∀ d ∈ (ds ++ List.replicate 9 0).take 9, d < 10 := by
        intro d hd
        obtain hd | hd := List.mem_append.mp (List.mem_of_mem_take hd)
        · exact hdigits d hd
        · obtain ⟨-, rfl⟩ := List.mem_replicate.mp hd
          decide
      have hlength : ((ds ++ List.replicate 9 0).take 9).length = 9 := by simp
      have hlt := ofDigits_lt hplaces
      rwa [hlength] at hlt
  · obtain ⟨rfl, -⟩ := Prod.mk.inj (Option.some.inj h)
    decide

/-- What is read of a clock is on it, and a leap second ends a minute. -/
theorem readTime_clock {cs rest : List Char} {second nanos : Nat}
    (h : readTime cs = some ((second, nanos), rest)) : second < daySeconds ∧
      (nanos < 1000000000 ∨ second % 60 = 59 ∧ nanos < 2000000000) := by
  have hday : daySeconds = 86400 := rfl
  unfold readTime at h
  simp only [Option.bind_eq_bind, Option.bind_eq_some_iff] at h
  obtain ⟨⟨hour, cs⟩, -, cs, -, ⟨minute, cs⟩, -, cs, -, ⟨sec, cs⟩, -, ⟨fraction, cs⟩, hfraction, h⟩ := h
  have hlt := readFraction_lt hfraction
  simp only at h
  split_ifs at h with hclock hleap <;>
    obtain ⟨hpair, -⟩ := Prod.mk.inj (Option.some.inj h) <;>
    obtain ⟨rfl, rfl⟩ := Prod.mk.inj hpair <;>
    omega

theorem readHoursMinutes_minutes {cs rest : List Char} {offset : Nat}
    (h : readHoursMinutes cs = some (offset, rest)) : offset % 60 = 0 := by
  unfold readHoursMinutes at h
  split at h
  · split at h
    · split at h
      · split_ifs at h
        obtain ⟨rfl, -⟩ := Prod.mk.inj (Option.some.inj h)
        omega
      · cases h
    · cases h
  · cases h

/-- Offsets are whole minutes. -/
theorem readOffset_minutes {cs rest : List Char} {offset : Int}
    (h : readOffset cs = some (offset, rest)) : offset % 60 = 0 := by
  have hsigned : ∀ {sign : Char} {cs : List Char},
      readOffset.signed sign cs = some (offset, rest) → offset % 60 = 0 := by
    intro sign cs h
    unfold readOffset.signed at h
    simp only [Option.bind_eq_bind, Option.bind_eq_some_iff] at h
    obtain ⟨⟨minutes, cs⟩, hminutes, h⟩ := h
    have hwhole := readHoursMinutes_minutes hminutes
    simp only at h
    split_ifs at h <;> obtain ⟨rfl, -⟩ := Prod.mk.inj (Option.some.inj h) <;> omega
  unfold readOffset at h
  split at h
  · obtain ⟨rfl, -⟩ := Prod.mk.inj (Option.some.inj h)
    rfl
  · obtain ⟨rfl, -⟩ := Prod.mk.inj (Option.some.inj h)
    rfl
  · split_ifs at h
    · obtain ⟨rfl, -⟩ := Prod.mk.inj (Option.some.inj h)
      rfl
    · exact hsigned h
  · exact hsigned h
  · cases h

/-- What is read is a date of the calendar, a time of day and an offset from universal time. -/
theorem read_ok {s : String} {i : Instant} (h : read s = some i) :
    ∃ date second nanos offset, (∃ cs rest, readDate cs = some (date, rest)) ∧
      (∃ cs rest, readTime cs = some ((second, nanos), rest)) ∧
      (∃ cs rest, readOffset cs = some (offset, rest)) ∧
      i = addSeconds ⟨date.dayNumber, second, nanos⟩ (-offset) := by
  unfold read at h
  simp only [Option.bind_eq_bind, Option.bind_eq_some_iff] at h
  obtain ⟨⟨date, cs⟩, hdate, h⟩ := h
  split at h
  · split_ifs at h
    · cases h
    simp only [Option.bind_eq_some_iff] at h
    obtain ⟨⟨⟨second, nanos⟩, cs⟩, htime, ⟨offset, cs⟩, hoffset, h⟩ := h
    simp only at h
    split_ifs at h
    · cases h
    exact ⟨date, second, nanos, offset, ⟨_, _, hdate⟩, ⟨_, _, htime⟩, ⟨_, _, hoffset⟩,
      (Option.some.inj h).symm⟩
  · cases h

/-- **An instant that was read is one of the calendar**, if its year is. -/
theorem proper_of_read {s : String} {i : Instant} (h : read s = some i)
    (hyear : -262143 ≤ (Date.ofDayNumber i.day).year ∧ (Date.ofDayNumber i.day).year ≤ 262142) :
    i.Proper := by
  have hday : daySeconds = 86400 := rfl
  obtain ⟨date, second, nanos, offset, -, ⟨_, _, htime⟩, ⟨_, _, hoffset⟩, rfl⟩ := read_ok h
  obtain ⟨hsecond, hnanos⟩ := readTime_clock htime
  have hminutes := readOffset_minutes hoffset
  have hlocal : (addSeconds ⟨date.dayNumber, second, nanos⟩ (-offset)).second =
      ((date.dayNumber * 86400 + second - offset) % 86400).toNat := by
    show Int.toNat (Int.fmod _ _) = _
    rw [Int.fmod_eq_emod_of_nonneg _ (by decide)]
    rfl
  refine ⟨?_, ?_, hyear⟩
  · rw [hlocal]
    omega
  · -- A whole number of minutes leaves the second within its minute where it was.
    rw [hlocal]
    show nanos < _ ∨ _ ∧ nanos < _
    omega

end Instant

end Codebook
