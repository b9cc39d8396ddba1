import FlatChart.Proofs.Chart.Altered
import FlatChart.Proofs.Chart.Decoding
import FlatChart.Proofs.Json.WellFormed

/-!
# What is read as a chart is well formed

The readers of transitions, states and charts take layouts, as they are built from readers that do.
So a text from which a chart is read is one layout with blanks around it
(`Chart.exists_layout_of_read`): wherever reading succeeds, the layouts are all that there is. Two
things follow for every text of a chart. What is passed over in it may be altered in any way, and
the same chart is read (`Chart.exists_layout_read_altered`). And the text as a whole is a value that
is passed over (`Chart.skipValue_of_read`), so it may itself stand where functions do.
-/

namespace FlatChart

open Reader

/-! ## Transitions -/

namespace Transition

/-- A member of a transition that is read has a layout under its name. -/
theorem takesUnder_readMember (depth : ℕ) : TakesUnder (readMember depth) := by
  intro d key text d' rest h
  unfold readMember at h
  split at h
  · obtain ⟨⟨_, _⟩, htarget, h⟩ := bind_eq_ok.1 h
    cases h
    exact laidUnder_of_readOnce (takes_readOptional takes_readString) htarget
  · obtain ⟨⟨_, _⟩, hactions, h⟩ := bind_eq_ok.1 h
    cases h
    exact laidUnder_of_readOnce takes_readSkipped hactions
  · obtain ⟨⟨_, _⟩, hcond, h⟩ := bind_eq_ok.1 h
    cases h
    exact laidUnder_of_readOnce takes_readSkipped hcond
  · obtain ⟨_, hcolon, h⟩ := bind_eq_ok.1 h
    obtain ⟨⟨_, _⟩, hvalue, h⟩ := bind_eq_ok.1 h
    cases h
    exact laidUnder_of_readColon hcolon (takes_readData depth hvalue)

/-- A transition that is read is a layout. -/
theorem takes_read (depth : ℕ) : Takes (read depth) := by
  intro text t rest h
  rw [read] at h
  split at h
  · next hskip =>
    obtain ⟨⟨_, _⟩, hmembers, h⟩ := bind_eq_ok.1 h
    cases h
    exact laid_of_members hskip
      (laidMembers_of_readMembers takesName_readText (takesUnder_readMember depth) _ hmembers)
  · exact absurd h (readUnexpected_ne_ok _ _ _)

end Transition

/-! ## States -/

namespace State

/-- A kind that is read is a layout. -/
theorem takes_readKind : Takes readKind := by
  intro text _ rest h
  rw [readKind] at h
  split at h
  · cases h
  · next hskip =>
    obtain ⟨⟨_, _⟩, htext, h⟩ := bind_eq_ok.1 h
    obtain ⟨_, _, h⟩ := bind_eq_ok.1 h
    cases h
    exact laid_of_closing hskip (of_readText htext)
  · next hskip =>
    obtain ⟨⟨_, _⟩, hname, h⟩ := bind_eq_ok.1 h
    obtain ⟨_, _, h⟩ := bind_eq_ok.1 h
    obtain ⟨_, hcolon, h⟩ := bind_eq_ok.1 h
    refine laid_of_members hskip ?_
    dsimp only at h
    split at h
    · next hnull =>
      obtain ⟨_, hword, h⟩ := bind_eq_ok.1 h
      have hunder := laidUnder_of_readColon hcolon (laid_of_word .null rfl hnull hword)
      split at h
      · cases h
      · next hclose =>
        cases h
        exact laidMembers_of_readName hname hunder hclose
      · cases h
    · obtain ⟨_, hunexpected, _⟩ := bind_eq_ok.1 h
      exact absurd hunexpected (readUnexpected_ne_ok _ _ _)
  · cases h

/-- The transitions of a state that are read are a layout. -/
theorem takes_readOn (depth : ℕ) : Takes (readOn depth) :=
  takes_readOptional (takes_readMap (Transition.takes_read depth))

/-- A member of a state that is read has a layout under its name. -/
theorem takesUnder_readMember (depth : ℕ) : TakesUnder (readMember depth) := by
  intro d key text d' rest h
  unfold readMember at h
  split at h
  · obtain ⟨⟨_, _⟩, hkind, h⟩ := bind_eq_ok.1 h
    cases h
    exact laidUnder_of_readOnce (takes_readOptional takes_readKind) hkind
  · obtain ⟨⟨_, _⟩, hon, h⟩ := bind_eq_ok.1 h
    cases h
    exact laidUnder_of_readOnce (takes_readOn depth) hon
  · exact laidUnder_of_skipMember h

/-- The items of a state that is read as an array stand up to its bracket. -/
theorem laidItems_of_readParts {depth : ℕ} {text rest : List Char} {d : Draft}
    (h : readParts depth text = .ok (d, rest)) : LaidItems true text rest := by
  obtain ⟨first, hfirst, h⟩ := bind_eq_ok.1 h
  cases first with
  | closed _ =>
    cases h
    exact laidItems_of_closed hfirst
  | entry _ =>
    obtain ⟨⟨_, _⟩, hkind, h⟩ := bind_eq_ok.1 h
    obtain ⟨second, hsecond, h⟩ := bind_eq_ok.1 h
    refine laidItems_of_entry hfirst (takes_readOptional takes_readKind hkind) ?_
    cases second with
    | closed _ =>
      cases h
      exact laidItems_of_closed hsecond
    | entry _ =>
      obtain ⟨⟨_, _⟩, hon, h⟩ := bind_eq_ok.1 h
      obtain ⟨_, hend, h⟩ := bind_eq_ok.1 h
      cases h
      exact laidItems_of_entry hsecond (takes_readOn depth hon) (laidItems_of_readArrayEnd hend)

/-- A state that is read is a layout. -/
theorem takes_read (depth : ℕ) : Takes (read depth) := by
  intro text s rest h
  rw [read] at h
  split at h
  · next hskip =>
    obtain ⟨⟨_, _⟩, hparts, h⟩ := bind_eq_ok.1 h
    cases h
    exact laid_of_items hskip (laidItems_of_readParts hparts)
  · next hskip =>
    obtain ⟨⟨_, _⟩, hmembers, h⟩ := bind_eq_ok.1 h
    cases h
    exact laid_of_members hskip
      (laidMembers_of_readMembers takesName_readText (takesUnder_readMember depth) _ hmembers)
  · exact absurd h (readUnexpected_ne_ok _ _ _)

end State

/-! ## Charts -/

namespace Chart

/-- A context that is read is a layout. -/
theorem takes_readContext : Takes readContext := takes_readOptional (takes_readData _)

/-- States that are read are a layout. -/
theorem takes_readStates : Takes readStates := takes_readMap (State.takes_read _)

/-- A member of a chart that is read has a layout under its name. -/
theorem takesUnder_readMember : TakesUnder readMember := by
  intro d key text d' rest h
  unfold readMember at h
  split at h
  · obtain ⟨⟨_, _⟩, hinitial, h⟩ := bind_eq_ok.1 h
    cases h
    exact laidUnder_of_readOnce takes_readString hinitial
  · obtain ⟨⟨_, _⟩, hcontext, h⟩ := bind_eq_ok.1 h
    cases h
    exact laidUnder_of_readOnce takes_readContext hcontext
  · obtain ⟨⟨_, _⟩, hstates, h⟩ := bind_eq_ok.1 h
    cases h
    exact laidUnder_of_readOnce takes_readStates hstates
  · exact laidUnder_of_skipMember h

/-- The items of a chart that is read as an array stand up to its bracket. -/
theorem laidItems_of_readParts {text rest : List Char} {d : Draft}
    (h : readParts text = .ok (d, rest)) : LaidItems true text rest := by
  obtain ⟨first, hfirst, h⟩ := bind_eq_ok.1 h
  cases first with
  | closed _ => cases h
  | entry _ =>
    obtain ⟨⟨_, _⟩, hinitial, h⟩ := bind_eq_ok.1 h
    obtain ⟨second, hsecond, h⟩ := bind_eq_ok.1 h
    refine laidItems_of_entry hfirst (takes_readString hinitial) ?_
    cases second with
    | closed _ =>
      cases h
      exact laidItems_of_closed hsecond
    | entry _ =>
      obtain ⟨⟨_, _⟩, hcontext, h⟩ := bind_eq_ok.1 h
      obtain ⟨third, hthird, h⟩ := bind_eq_ok.1 h
      refine laidItems_of_entry hsecond (takes_readContext hcontext) ?_
      cases third with
      | closed _ =>
        cases h
        exact laidItems_of_closed hthird
      | entry _ =>
        obtain ⟨⟨_, _⟩, hstates, h⟩ := bind_eq_ok.1 h
        obtain ⟨_, hend, h⟩ := bind_eq_ok.1 h
        cases h
        exact laidItems_of_entry hthird (takes_readStates hstates) (laidItems_of_readArrayEnd hend)

/-- Completing what was read takes no more of the text. -/
theorem snd_of_completed {p : Draft × List Char} {c : Chart} {rest : List Char}
    (h : completed p = .ok (c, rest)) : p.2 = rest := by
  rw [completed] at h
  split at h
  · cases h
    rfl
  · cases h

/-- A chart that is read inside a text is a layout. -/
theorem takes_readValue : Takes readValue := by
  intro text c rest h
  rw [readValue_eq] at h
  split at h
  · next hskip =>
    obtain ⟨⟨_, left⟩, hparts, h⟩ := bind_eq_ok.1 h
    obtain rfl : left = rest := snd_of_completed h
    exact laid_of_items hskip (laidItems_of_readParts hparts)
  · next hskip =>
    obtain ⟨⟨_, left⟩, hmembers, h⟩ := bind_eq_ok.1 h
    obtain rfl : left = rest := snd_of_completed h
    exact laid_of_members hskip
      (laidMembers_of_readMembers takesName_readText takesUnder_readMember _ hmembers)
  · exact absurd h (readUnexpected_ne_ok _ _ _)

/-- A text from which a chart is read is one layout, with blanks around it. -/
theorem exists_layout_of_read {text : String} {c : Chart} (h : Chart.read text = .ok c) :
    ∃ (before after : Gap) (w : Layout),
      text = String.ofList (before.chars ++ (w.chars ++ after.chars)) := by
  obtain ⟨⟨_, rest⟩, hvalue, h⟩ := bind_eq_ok.1 h
  obtain ⟨before, w, hw⟩ := takes_readValue hvalue
  obtain ⟨_, hend, -⟩ := bind_eq_ok.1 h
  obtain ⟨after, hafter⟩ : ∃ after : Gap, rest = after.chars := by
    obtain ⟨after, hafter⟩ := exists_gap rest
    rw [readEnd] at hend
    split at hend
    · next hskip => exact ⟨after, by rw [hafter, hskip, List.append_nil]⟩
    · cases hend
  refine ⟨before, after, w, ?_⟩
  rw [← hafter, ← hw, String.ofList_toList]

/-- A text from which a chart is read is one layout, with blanks around it, and however the layout
is altered in what is passed over, the same chart is read. -/
theorem exists_layout_read_altered {text : String} {c : Chart} (h : Chart.read text = .ok c) :
    ∃ (before after : Gap) (w : Layout),
      text = String.ofList (before.chars ++ (w.chars ++ after.chars)) ∧
        ∀ (w' : Layout) (before' : Gap), ChartAltered w w' →
          Chart.read (String.ofList (before'.chars ++ (w'.chars ++ after.chars))) = .ok c := by
  obtain ⟨before, after, w, rfl⟩ := exists_layout_of_read h
  refine ⟨before, after, w, rfl, fun w' before' haltered => ?_⟩
  rw [Chart.read, String.toList_ofList] at h ⊢
  rwa [← readValue_altered haltered before before' after.chars]

/-- A text from which a chart is read is passed over where a value is, up to the blanks behind
it. -/
theorem skipValue_of_read {text : String} {c : Chart} (h : Chart.read text = .ok c) :
    ∃ after : Gap, skipValue text.toList = .ok after.chars := by
  obtain ⟨before, after, w, rfl⟩ := exists_layout_of_read h
  have hends : Ends after.chars := by simpa using ends_gap after ends_nil
  refine ⟨after, (skipValue_eq_ok_iff hends).2 ⟨before, w, ?_⟩⟩
  rw [String.toList_ofList]

end Chart

end FlatChart
