import Iouxx.Ip.Formatter
import Iouxx.Lib.Loop

/-!
# The format specs of IPv6 socket addresses

A format spec ends at the closing brace or at the end of the range that the parser is given, whatever
comes first. The parser for IPv6 socket addresses looks at the first character, and at the one behind
a separator, without a test for the end.

* `FormatterV6.parse_append`: the nested parser stops where the spec ends;
* `FormatterSocketV6.parsesSpec_iff`: **the parser accepts its specs and refuses the others, on every
  range that goes on behind an empty spec and behind a lone separator**.
-/

namespace Iouxx.Ip

open Iouxx.Lib.Loop

/-! ### Specs and ranges -/

/-- The format spec at the front of a range. -/
def specOf (range : List Char) : List Char := range.takeWhile (· ≠ '}')

/-- What is left of the range. -/
def restOf (range : List Char) : List Char := range.dropWhile (· ≠ '}')

/-- A range that a spec does not go on in. -/
def Ends (rest : List Char) : Prop := rest = [] ∨ rest.head? = some '}'

theorem specOf_append_restOf (range : List Char) : specOf range ++ restOf range = range :=
  List.takeWhile_append_dropWhile

theorem not_mem_specOf (range : List Char) : '}' ∉ specOf range := by
  intro h
  have hne := List.mem_takeWhile_imp h
  simp at hne

theorem ends_restOf (range : List Char) : Ends (restOf range) := by
  unfold Ends restOf
  rcases h : range.dropWhile (· ≠ '}') with _ | ⟨c, rest⟩
  · exact .inl rfl
  · right
    have hne : range.dropWhile (· ≠ '}') ≠ [] := by
      rw [h]
      exact List.cons_ne_nil c rest
    have hc := List.head_dropWhile_not _ hne
    simp only [h, List.head_cons] at hc
    simpa using hc

theorem expectEnd_of_ends {rest : List Char} (h : Ends rest) (what : String) :
    expectEnd what rest = .ok rest := by
  rcases rest with _ | ⟨c, rest⟩
  · rfl
  · rcases h with h | h
    · cases h
    · obtain rfl := Option.some.inj h
      rfl

/-! ### The nested parser -/

namespace FormatterV6

theorem parseLoop_append {rest : List Char} (hrest : Ends rest) :
    ∀ {spec : List Char} (f : FormatterV6), '}' ∉ spec →
      f.parseLoop (spec ++ rest) = (f.parseLoop spec).map fun r => (r.1, rest)
  | [], f, _ => by
    rcases rest with _ | ⟨c, rest⟩
    · rfl
    · rcases hrest with h | h
      · cases h
      · obtain rfl := Option.some.inj h
        rfl
  | c :: spec, f, hspec => by
    rw [List.mem_cons, not_or] at hspec
    rw [List.cons_append]
    unfold parseLoop
    rw [if_neg (Ne.symm hspec.1), if_neg (Ne.symm hspec.1)]
    rcases f.parseChar c with e | f'
    · rfl
    · exact parseLoop_append hrest f' hspec.2

theorem parseLoop_rest : ∀ {spec it : List Char} {f f' : FormatterV6}, '}' ∉ spec →
    f.parseLoop spec = .ok (f', it) → it = []
  | [], it, f, f', _, h => (Prod.mk.inj (Except.ok.inj h)).2.symm
  | c :: spec, it, f, f', hspec, h => by
    rw [List.mem_cons, not_or] at hspec
    unfold parseLoop at h
    rw [if_neg (Ne.symm hspec.1)] at h
    rcases hc : f.parseChar c with e | f₁
    · rw [hc] at h
      cases h
    · rw [hc] at h
      exact parseLoop_rest hspec.2 h

theorem parseChar_error {f : FormatterV6} {c : Char} {e : SpecError} (h : f.parseChar c = .error e) :
    ∃ what, e = .formatError what := by
  unfold parseChar at h
  split at h
  all_goals try split_ifs at h
  all_goals exact ⟨_, (Except.error.inj h).symm⟩

theorem parseLoop_error : ∀ {spec : List Char} {f : FormatterV6} {e : SpecError},
    f.parseLoop spec = .error e → ∃ what, e = .formatError what
  | c :: spec, f, e, h => by
    unfold parseLoop at h
    split_ifs at h
    rcases hc : f.parseChar c with e' | f₁
    · rw [hc] at h
      obtain rfl := Except.error.inj h
      exact parseChar_error hc
    · rw [hc] at h
      exact parseLoop_error h

theorem validate_error {f : FormatterV6} {e : SpecError} (h : f.validate = .error e) :
    ∃ what, e = .formatError what := by
  unfold validate at h
  split_ifs at h
  all_goals exact ⟨_, (Except.error.inj h).symm⟩

theorem parse_cons {c : Char} (hc : c ≠ '}') (f : FormatterV6) (it : List Char) :
    f.parse (c :: it) = match f.parseLoop (c :: it) with
      | .error e => .error e
      | .ok (f, it) => f.validate.map fun _ => (f, it) := by
  unfold parse
  rw [if_neg (by simpa using hc)]
  rcases f.parseLoop (c :: it) with e | ⟨f, it⟩
  · rfl
  · change (f.validate >>= fun _ => .ok (f, it)) = f.validate.map fun _ => (f, it)
    rcases f.validate with e | _
    · rfl
    · rfl

/-- **A spec that the parser accepts**, to its end. -/
def Accepts (spec : List Char) : Prop := ∃ f, parse {} spec = .ok (f, [])

/-- **The nested parser stops where the spec ends**, and reports nothing but format errors. -/
theorem parse_append {spec rest : List Char} (hspec : '}' ∉ spec) (hrest : Ends rest) :
    (Accepts spec → ∃ f, parse {} (spec ++ rest) = .ok (f, rest)) ∧
      (¬ Accepts spec → ∃ what, parse {} (spec ++ rest) = .error (.formatError what)) := by
  rcases spec with _ | ⟨c, spec⟩
  · refine ⟨fun _ => ⟨{ seenR := true }, ?_⟩, fun h => absurd ⟨{ seenR := true }, rfl⟩ h⟩
    unfold parse
    exact if_pos hrest
  · have hc : c ≠ '}' := fun h => hspec (h ▸ List.mem_cons_self ..)
    have happend := parseLoop_append hrest {} hspec
    unfold Accepts
    rw [List.cons_append] at happend ⊢
    rw [parse_cons hc, parse_cons hc, happend]
    rcases hloop : parseLoop {} (c :: spec) with e | ⟨f, it⟩
    · obtain ⟨what, rfl⟩ := parseLoop_error hloop
      exact ⟨fun ⟨f, h⟩ => (nomatch h), fun _ => ⟨what, rfl⟩⟩
    · obtain rfl := parseLoop_rest hspec hloop
      rcases hvalid : f.validate with e | _
      · obtain ⟨what, rfl⟩ := validate_error hvalid
        refine ⟨?_, fun _ => ⟨what, ?_⟩⟩
        · rintro ⟨f', h⟩
          simp only [hvalid] at h
          cases h
        · simp only [Except.map, hvalid]
      · refine ⟨fun _ => ⟨f, ?_⟩, fun h => absurd ⟨f, ?_⟩ h⟩
        · simp only [Except.map, hvalid]
        · simp only [Except.map, hvalid]

end FormatterV6

/-! ### The parser for socket addresses -/

namespace FormatterSocketV6

/-- The part of a spec behind the separator. -/
def Nested (spec : List Char) : Prop :=
  spec = [] ∨ ∃ v6, spec = ':' :: v6 ∧ FormatterV6.Accepts v6

/-- **The specs**: an optional `/` or `#`, then optionally `:` and a spec for the address. -/
def IsSpec (spec : List Char) : Prop :=
  Nested spec ∨ ∃ c nested, (c = '/' ∨ c = '#') ∧ spec = c :: nested ∧ Nested nested

/-- **The parser does what it should on a range**: it reads no character at the end, it accepts the
specs and stops behind them, and it refuses everything else with a `std::format_error`. -/
structure ParsesSpec (range : List Char) : Prop where
  inRange : parse {} range ≠ .error .undefined
  accepts : IsSpec (specOf range) → ∃ f, parse {} range = .ok (f, restOf range)
  refuses : ¬ IsSpec (specOf range) → ∃ what, parse {} range = .error (.formatError what)

/-- `parse` behind the separator. -/
def parseBehind (f : FormatterSocketV6) (it : List Char) :
    Except SpecError (FormatterSocketV6 × List Char) := do
  let (f, it) ← f.parseNested it
  let it ← expectEnd "invalid format spec for socketv6" it
  return (f, it)

variable {f : FormatterSocketV6} {spec rest : List Char}

theorem parse_seperator {c : Char} (hc : c = '/' ∨ c = '#') (it : List Char) :
    f.parse (c :: it) = parseBehind { f with seperator := c } it := by
  change f.parseSeperator (c :: it) >>= (fun r => r.1.parseBehind r.2) = _
  unfold parseSeperator
  simp only [if_pos hc]
  rfl

theorem parse_of_not_seperator {c : Char} (hc : ¬ (c = '/' ∨ c = '#')) (it : List Char) :
    f.parse (c :: it) = f.parseBehind (c :: it) := by
  change f.parseSeperator (c :: it) >>= (fun r => r.1.parseBehind r.2) = _
  unfold parseSeperator
  simp only [if_neg hc]
  rfl

theorem parseBehind_append (hf : f.addrFormatter = {}) (hspec : '}' ∉ spec) (hrest : Ends rest)
    (hne : spec ++ rest ≠ []) :
    (Nested spec → ∃ f', f.parseBehind (spec ++ rest) = .ok (f', rest)) ∧
      (¬ Nested spec → ∃ what, f.parseBehind (spec ++ rest) = .error (.formatError what)) := by
  unfold parseBehind
  rcases spec with _ | ⟨c, spec⟩
  · rcases rest with _ | ⟨c, rest⟩
    · exact absurd rfl hne
    · have hc : c ≠ ':' := by
        rintro rfl
        rcases hrest with h | h
        · cases h
        · exact absurd (Option.some.inj h) (by decide)
      refine ⟨fun _ => ?_, fun h => absurd (.inl rfl) h⟩
      rw [List.nil_append, parseNested, if_neg hc]
      change ∃ f', (expectEnd _ (c :: rest) >>= _) = Except.ok (f', c :: rest)
      rw [expectEnd_of_ends hrest]
      exact ⟨_, rfl⟩
  · rw [List.mem_cons, not_or] at hspec
    by_cases hc : c = ':'
    · subst hc
      obtain ⟨haccepts, hrefuses⟩ := FormatterV6.parse_append hspec.2 hrest
      have hnested : Nested (':' :: spec) ↔ FormatterV6.Accepts spec := by
        refine ⟨?_, fun h => .inr ⟨spec, rfl, h⟩⟩
        rintro (h | ⟨v6, h, hv6⟩)
        · cases h
        · rw [(List.cons.inj h).2]
          exact hv6
      rw [hnested, List.cons_append, parseNested, if_pos rfl, hf]
      refine ⟨fun h => ?_, fun h => ?_⟩
      · obtain ⟨g, hg⟩ := haccepts h
        rw [hg]
        change ∃ f', (expectEnd _ rest >>= _) = Except.ok (f', rest)
        rw [expectEnd_of_ends hrest]
        exact ⟨_, rfl⟩
      · obtain ⟨what, hwhat⟩ := hrefuses h
        rw [hwhat]
        exact ⟨what, rfl⟩
    · have hnot : ¬ Nested (c :: spec) := by
        rintro (h | ⟨v6, h, -⟩)
        · cases h
        · exact hc (List.cons.inj h).1
      refine ⟨fun h => absurd h hnot, fun _ => ⟨"invalid format spec for socketv6", ?_⟩⟩
      rw [List.cons_append, parseNested, if_neg hc]
      change (expectEnd _ (c :: (spec ++ rest)) >>= _) = _
      rw [expectEnd, if_neg (Ne.symm hspec.1)]
      rfl

theorem isSpec_iff_nested {c : Char} (hc : ¬ (c = '/' ∨ c = '#')) :
    IsSpec (c :: spec) ↔ Nested (c :: spec) := by
  refine ⟨?_, .inl⟩
  rintro (h | ⟨c', nested, hc', h, -⟩)
  · exact h
  · rw [← (List.cons.inj h).1] at hc'
    exact absurd hc' hc

theorem isSpec_seperator {c : Char} (hc : c = '/' ∨ c = '#') :
    IsSpec (c :: spec) ↔ Nested spec := by
  refine ⟨?_, fun h => .inr ⟨c, spec, hc, rfl, h⟩⟩
  rintro ((h | ⟨v6, h, -⟩) | ⟨c', nested, -, h, hnested⟩)
  · cases h
  · rw [(List.cons.inj h).1] at hc
    exact absurd hc (by decide)
  · rw [(List.cons.inj h).2]
    exact hnested

theorem parsesSpec_of {range : List Char}
    (h : (IsSpec (specOf range) → ∃ f, parse {} range = .ok (f, restOf range)) ∧
      (¬ IsSpec (specOf range) → ∃ what, parse {} range = .error (.formatError what))) :
    ParsesSpec range := by
  refine ⟨fun hundef => ?_, h.1, h.2⟩
  by_cases hspec : IsSpec (specOf range)
  · obtain ⟨f, hf⟩ := h.1 hspec
    rw [hundef] at hf
    cases hf
  · obtain ⟨what, hwhat⟩ := h.2 hspec
    rw [hundef] at hwhat
    cases hwhat

/-- **When the parser does what it should.** On every range, ending at a brace or not: it never reads at
the end, accepts exactly the specs and refuses everything else with a format error, if and only if
the range is not empty and not a separator alone. -/
theorem parsesSpec_iff (range : List Char) :
    ParsesSpec range ↔ range ≠ [] ∧ range ≠ ['/'] ∧ range ≠ ['#'] := by
  refine ⟨fun h => ⟨?_, ?_, ?_⟩, ?_⟩
  · rintro rfl
    exact h.inRange rfl
  · rintro rfl
    exact h.inRange rfl
  · rintro rfl
    exact h.inRange rfl
  · rintro ⟨hne, hslash, hhash⟩
    refine parsesSpec_of ?_
    have hsplit := specOf_append_restOf range
    have hrest := ends_restOf range
    have hspec := not_mem_specOf range
    generalize specOf range = spec at hsplit hspec ⊢
    generalize restOf range = rest at hsplit hrest ⊢
    subst hsplit
    rcases spec with _ | ⟨c, spec⟩
    · -- the rest begins with the brace
      rcases rest with _ | ⟨c, rest⟩
      · exact absurd rfl hne
      · have hc : c = '}' := by
          rcases hrest with h | h
          · cases h
          · exact Option.some.inj h
        have hparse : parse {} ([] ++ c :: rest) = parseBehind {} ([] ++ c :: rest) :=
          parse_of_not_seperator (by rw [hc]; decide) rest
        rw [hparse]
        have hiff : IsSpec [] ↔ Nested [] := iff_of_true (.inl (.inl rfl)) (.inl rfl)
        rw [hiff]
        exact parseBehind_append rfl hspec hrest hne
    · by_cases hc : c = '/' ∨ c = '#'
      · rw [isSpec_seperator hc, List.cons_append, parse_seperator hc]
        rw [List.mem_cons, not_or] at hspec
        refine parseBehind_append rfl hspec.2 hrest fun hnil => ?_
        rw [List.cons_append, hnil] at hslash hhash
        rcases hc with rfl | rfl
        · exact hslash rfl
        · exact hhash rfl
      · rw [isSpec_iff_nested hc, List.cons_append, parse_of_not_seperator hc, ← List.cons_append]
        exact parseBehind_append rfl hspec hrest hne

/-- **The end of the range is read** behind a separator, and where there is no spec. -/
theorem not_parsesSpec_slash : ¬ ParsesSpec ['/'] ∧ ¬ ParsesSpec [] :=
  ⟨fun h => h.inRange rfl, fun h => h.inRange rfl⟩

end FormatterSocketV6

end Iouxx.Ip
