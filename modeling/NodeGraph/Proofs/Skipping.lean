import NodeGraph.Document.Skip
import NodeGraph.Proofs.Extents

/-!
# Values that are passed over, and how much of a text they are

A value that nobody asks for is passed over with a stack of the brackets that are open. To a scanner
the stack is its depth: going on from a stack to another one leads from the depth of the one to the
depth of the other. Lists and objects differ in their brackets, and in what stands before a value
inside of them, nothing or a key (`Frame.pass`); what a step can do is said once for both of them
(`afterValue_cons_eq_ok`, `skipStep_eq_ok`).
-/

namespace NodeGraph.Document

namespace Frame

def opening : Frame → Char
  | list => '['
  | object => '\x7b'

def closing : Frame → Char
  | list => ']'
  | object => '\x7d'

/-- Go past what stands before a value inside the bracket. -/
def pass : Frame → List Char → Except Malformed (List Char)
  | list => .ok
  | object => skipKey

end Frame

/-! ### What can happen -/

theorem afterValue_cons_eq_ok {frame : Frame} {outer frames : List Frame} {text rest : List Char} :
    afterValue (frame :: outer) text = .ok (frames, rest) ↔
      (∃ inside, skipBlanks text = frame.closing :: inside ∧
        afterValue outer inside = .ok (frames, rest)) ∨
      ∃ inside, skipBlanks text = ',' :: inside ∧ frame.pass inside = .ok rest ∧
        frames = frame :: outer := by
  constructor
  · intro read
    cases frame with
    | list =>
      rw [afterValue] at read
      split at read
      · cases read
      · exact .inl ⟨_, ‹_›, read⟩
      · cases read
        exact .inr ⟨_, ‹_›, rfl, rfl⟩
      · cases read
    | object =>
      rw [afterValue] at read
      split at read
      · cases read
      · exact .inl ⟨_, ‹_›, read⟩
      · rw [bind_eq_ok] at read
        obtain ⟨between, passed, read⟩ := read
        cases read
        exact .inr ⟨_, ‹_›, passed, rfl⟩
      · cases read
  · rintro (⟨inside, closed, read⟩ | ⟨inside, comma, passed, rfl⟩)
    · cases frame <;> rw [afterValue, closed] <;> exact read
    · cases frame with
      | list =>
        cases passed
        rw [afterValue, comma]
        rfl
      | object =>
        rw [afterValue, comma]
        exact bind_eq_ok.mpr ⟨rest, passed, rfl⟩

theorem skipStep_eq_ok {frames frames' : List Frame} {text rest : List Char} :
    skipStep frames text = .ok (frames', rest) ↔
      (∃ frame inside, skipBlanks text = Frame.opening frame :: inside ∧
        ((∃ back, skipBlanks inside = frame.closing :: back ∧
          afterValue frames back = .ok (frames', rest)) ∨
        ∃ c start, skipBlanks inside = c :: start ∧ c ≠ frame.closing ∧
          frame.pass (c :: start) = .ok rest ∧ frames' = frame :: frames)) ∨
      ∃ c start between, skipBlanks text = c :: start ∧ c ≠ '[' ∧ c ≠ '\x7b' ∧
        skipScalar (c :: start) = .ok between ∧
          afterValue frames between = .ok (frames', rest) := by
  constructor
  · intro read
    unfold skipStep at read
    split at read
    · rename_i inside opened
      refine .inl ⟨.list, inside, opened, ?_⟩
      split at read
      · cases read
      · exact .inl ⟨_, ‹_›, read⟩
      · rename_i empty closed
        cases read
        cases h : skipBlanks inside with
        | nil => exact absurd h empty
        | cons c start =>
          exact .inr ⟨c, start, rfl, fun e => closed start (h.trans (e ▸ rfl)), rfl, rfl⟩
    · rename_i inside opened
      refine .inl ⟨.object, inside, opened, ?_⟩
      split at read
      · cases read
      · exact .inl ⟨_, ‹_›, read⟩
      · rename_i empty closed
        rw [bind_eq_ok] at read
        obtain ⟨between, passed, read⟩ := read
        cases read
        cases h : skipBlanks inside with
        | nil => exact absurd h empty
        | cons c start =>
          exact .inr ⟨c, start, rfl, fun e => closed start (h.trans (e ▸ rfl)), h ▸ passed, rfl⟩
    · rename_i list object
      rw [bind_eq_ok] at read
      obtain ⟨between, passed, read⟩ := read
      cases h : skipBlanks text with
      | nil =>
        rw [h] at passed
        cases passed
      | cons c start =>
        exact .inr ⟨c, start, between, rfl, fun e => list start (e ▸ h),
          fun e => object start (e ▸ h), h ▸ passed, read⟩
  · rintro (⟨frame, inside, opened, ⟨back, closed, read⟩ | ⟨c, start, opens, more, passed, rfl⟩⟩ |
      ⟨c, start, between, h, list, object, passed, read⟩)
    · unfold skipStep
      cases frame <;> rw [opened] <;> simp only [Frame.opening, closed] <;> exact read
    · unfold skipStep
      cases frame with
      | list =>
        cases passed
        simp only [opened, Frame.opening, opens]
        split
        · simp_all
        · simp_all [Frame.closing]
        · rfl
      | object =>
        simp only [opened, Frame.opening, opens]
        split
        · simp_all
        · simp_all [Frame.closing]
        · exact bind_eq_ok.mpr ⟨rest, passed, rfl⟩
    · unfold skipStep
      rw [h]
      split
      · simp_all
      · simp_all
      · exact bind_eq_ok.mpr ⟨between, passed, read⟩

/-! ### How much is passed over -/

theorem regular_skipScalar : Regular (Closes (.outside 0)) (passing skipScalar) := by
  intro text a rest read
  have skip_eq := read
  rw [passing_eq_ok] at read
  unfold skipScalar at read
  split at read
  · exact takes_word ['u', 'l', 'l'] (by decide) (fun _ => rfl) skip_eq
  · exact takes_word ['r', 'u', 'e'] (by decide) (fun _ => rfl) skip_eq
  · exact takes_word ['a', 'l', 's', 'e'] (by decide) (fun _ => rfl) skip_eq
  · exact (regular_skipString _ _ _ (passing_eq_ok.mpr read)).cons (fun _ => rfl)
      fun u h => h.cons rfl
  · rw [bind_eq_ok] at read
    obtain ⟨⟨parts, between⟩, read, e⟩ := read
    cases e
    obtain ⟨u, rfl, closes, again⟩ := regular_numberParts _ _ _ _ _ read
    refine ⟨'-' :: u, rfl, closes.cons rfl, fun rest' stands => passing_eq_ok.mpr ?_⟩
    rw [List.cons_append, skipScalar]
    exact bind_eq_ok.mpr ⟨_, again rest' stands, rfl⟩
  · rename_i c text null true false quote minus
    split at read
    · rename_i digit
      rw [bind_eq_ok] at read
      obtain ⟨⟨parts, between⟩, read, e⟩ := read
      cases e
      obtain ⟨u, rfl, closes, again⟩ := (regular_numberParts _ _).cons read
      refine ⟨c :: u, rfl, closes, fun rest' stands => passing_eq_ok.mpr ?_⟩
      rw [List.cons_append, skipScalar, if_pos digit]
      · exact bind_eq_ok.mpr ⟨_, again rest' stands, rfl⟩
      all_goals assumption
    · cases read
  · cases read

theorem regular_skipKey : Regular (Closes (.outside 0)) (passing skipKey) := by
  refine regular_of_skipBlanks (fun text => by simp only [passing, skipKey, skipBlanks_skipBlanks])
    (fun c text a rest solid read => ?_) (fun read h => by cases h)
  rw [passing_eq_ok, skipKey, skipBlanks_cons solid] at read
  split at read
  · cases read
  · rename_i e
    cases e
    rw [bind_eq_ok] at read
    obtain ⟨between, hs, hc⟩ := read
    obtain ⟨u, rfl, closes, again⟩ := regular_skipString _ _ _ (passing_eq_ok.mpr hs)
    obtain ⟨v, rfl, closes', again'⟩ := regular_colon _ _ _ (passing_eq_ok.mpr hc)
    refine ⟨'"' :: (u ++ v), by simp, .cons rfl (.append closes.outside closes'),
      fun rest' stands => passing_eq_ok.mpr ?_⟩
    rw [List.cons_append, List.append_assoc, skipKey, skipBlanks_cons solid]
    exact bind_eq_ok.mpr
      ⟨_, passing_eq_ok.mp (again _ (stands.append v)), passing_eq_ok.mp (again' rest' stands)⟩
  · cases read

theorem Frame.regular_pass (frame : Frame) : Regular Whole (passing frame.pass) := by
  cases frame with
  | list =>
    intro text a rest read
    cases passing_eq_ok.mp read
    exact ⟨[], rfl, rfl, fun rest' _ => rfl⟩
  | object => exact regular_skipKey.mono fun text h => h.outside

/-- A closing bracket leads one bracket further out. -/
theorem Frame.step_closing (frame : Frame) (depth : Nat) :
    (Place.outside (depth + 1)).step frame.closing = some (.outside depth) := by
  cases frame <;> simp [Frame.closing, Place.step]

theorem Frame.step_opening (frame : Frame) (depth : Nat) :
    (Place.outside depth).step frame.opening = some (.outside (depth + 1)) := by
  cases frame <;> simp [Frame.opening, Place.step]

/-- What is passed over leads from the brackets that were open to those that are left. -/
def Leads (frames frames' : List Frame) (taken : List Char) : Prop :=
  (Place.outside frames.length).after taken = some (.outside frames'.length)

theorem Leads.append {frames frames' frames'' : List Frame} {text text' : List Char}
    (h : Leads frames frames' text) (h' : Leads frames' frames'' text') :
    Leads frames frames'' (text ++ text') := by
  unfold Leads at *
  rw [Place.after_append, h]
  exact h'

theorem Whole.leads {text : List Char} (h : Whole text) (frames : List Frame) :
    Leads frames frames text :=
  h.within frames.length

theorem Frame.leads_closing (frame : Frame) (frames : List Frame) :
    Leads (frame :: frames) frames [frame.closing] := by
  simp [Leads, frame.step_closing]

theorem Frame.leads_opening (frame : Frame) (frames : List Frame) :
    Leads frames (frame :: frames) [frame.opening] := by
  simp [Leads, frame.step_opening]

theorem Frame.leads_comma (frame : Frame) (frames : List Frame) :
    Leads (frame :: frames) (frame :: frames) [','] := by
  simp [Leads, Place.step, isEnd]

/-- After a value, what is passed over up to the next one. When there is none, it is nothing or ends
with a bracket. -/
theorem takes_afterValue {frames frames' : List Frame} {text rest : List Char}
    (read : afterValue frames text = .ok (frames', rest)) :
    Takes (fun taken => Leads frames frames' taken ∧ (frames' = [] → taken = [] ∨ Solid taken))
      (afterValue frames) text frames' rest := by
  induction frames generalizing text with
  | nil =>
    cases read
    exact ⟨[], rfl, ⟨rfl, fun _ => .inl rfl⟩, fun rest' _ => rfl⟩
  | cons frame outer ih =>
    rw [afterValue_cons_eq_ok] at read
    rcases read with ⟨inside, closed, read⟩ | ⟨inside, comma, passed, rfl⟩
    · obtain ⟨⟨blanks, all, rfl⟩, solid⟩ := skipBlanks_eq_cons closed
      obtain ⟨u, rfl, ⟨leads, ends⟩, again⟩ := ih read
      refine ⟨blanks ++ ([frame.closing] ++ u), by simp, ⟨?_, fun outermost => .inr ?_⟩,
        fun rest' stands => ?_⟩
      · exact (all.whole.leads _).append ((frame.leads_closing outer).append leads)
      · refine .append blanks ?_
        rcases ends outermost with rfl | ends
        · exact solid_singleton solid
        · exact ends.append _
      · refine afterValue_cons_eq_ok.mpr (.inl ⟨u ++ rest', ?_, again rest' stands⟩)
        rw [List.append_assoc, skipBlanks_append all]
        exact skipBlanks_cons solid _
    · obtain ⟨⟨blanks, all, rfl⟩, -⟩ := skipBlanks_eq_cons comma
      obtain ⟨u, rfl, whole, again⟩ := frame.regular_pass _ _ _ (passing_eq_ok.mpr passed)
      refine ⟨blanks ++ ([','] ++ u), by simp, ⟨?_, by simp⟩, fun rest' stands => ?_⟩
      · exact (all.whole.leads _).append ((frame.leads_comma outer).append (whole.leads _))
      · refine afterValue_cons_eq_ok.mpr
          (.inr ⟨u ++ rest', ?_, passing_eq_ok.mp (again rest' stands), rfl⟩)
        rw [List.append_assoc, skipBlanks_append all]
        exact skipBlanks_cons rfl _

/-- A step passes over something, and over the end of the value when no bracket is left. While there
is one, a value has to stand in what follows. -/
theorem skipStep_takes {frames frames' : List Frame} {text rest : List Char}
    (read : skipStep frames text = .ok (frames', rest)) :
    ∃ taken, text = taken ++ rest ∧ taken ≠ [] ∧ Leads frames frames' taken ∧
      (frames' = [] → Solid taken) ∧ ∀ rest', Replaces rest' rest →
        frames' = [] ∨ rest'.head? = rest.head? →
          skipStep frames (taken ++ rest') = .ok (frames', rest') := by
  rw [skipStep_eq_ok] at read
  rcases read with
    ⟨frame, inside, opened, ⟨back, closed, read⟩ | ⟨c, start, opens, more, passed, rfl⟩⟩ |
      ⟨c, start, between, h, list, object, passed, read⟩
  · obtain ⟨⟨blanks, all, rfl⟩, solid⟩ := skipBlanks_eq_cons opened
    obtain ⟨⟨blanks', all', rfl⟩, solid'⟩ := skipBlanks_eq_cons closed
    obtain ⟨u, rfl, ⟨leads, ends⟩, again⟩ := takes_afterValue read
    refine ⟨blanks ++ ([frame.opening] ++ (blanks' ++ ([frame.closing] ++ u))), by simp, by simp,
      ?_, fun outermost => ?_, fun rest' stands _ => ?_⟩
    · exact (all.whole.leads _).append <| (frame.leads_opening _).append <|
        (all'.whole.leads _).append <| (frame.leads_closing _).append leads
    · refine .append _ (.append _ (.append _ ?_))
      rcases ends outermost with rfl | ends
      · exact solid_singleton solid'
      · exact ends.append _
    · refine skipStep_eq_ok.mpr (.inl ⟨frame, blanks' ++ ([frame.closing] ++ u) ++ rest', ?_,
        .inl ⟨u ++ rest', ?_, again rest' stands⟩⟩)
      · rw [List.append_assoc, skipBlanks_append all]
        exact skipBlanks_cons solid _
      · rw [List.append_assoc, skipBlanks_append all']
        exact skipBlanks_cons solid' _
  · obtain ⟨⟨blanks, all, rfl⟩, solid⟩ := skipBlanks_eq_cons opened
    obtain ⟨⟨blanks', all', rfl⟩, solid'⟩ := skipBlanks_eq_cons opens
    obtain ⟨u, e, whole, again⟩ := frame.regular_pass _ _ _ (passing_eq_ok.mpr passed)
    refine ⟨blanks ++ ([frame.opening] ++ (blanks' ++ u)), by simp [e], by simp, ?_, by simp,
      fun rest' stands more' => ?_⟩
    · exact (all.whole.leads _).append <| (frame.leads_opening _).append <|
        (all'.whole.leads _).append (whole.leads _)
    · obtain ⟨start', e'⟩ : ∃ start', u ++ rest' = c :: start' := by
        cases u with
        | nil =>
          have same : rest'.head? = some c := by
            rw [more'.resolve_left (by simp), ← show c :: start = rest from e]
            rfl
          exact List.head?_eq_some_iff.mp same
        | cons d u => exact ⟨u ++ rest', by cases e; rfl⟩
      have passed := passing_eq_ok.mp (again rest' stands)
      rw [e'] at passed
      refine skipStep_eq_ok.mpr (.inl ⟨frame, blanks' ++ (u ++ rest'), ?_,
        .inr ⟨c, start', ?_, more, passed, rfl⟩⟩)
      · rw [List.append_assoc, skipBlanks_append all, List.append_assoc, List.append_assoc]
        exact skipBlanks_cons solid _
      · rw [skipBlanks_append all', e']
        exact skipBlanks_cons solid' _
  · obtain ⟨⟨blanks, all, rfl⟩, solid⟩ := skipBlanks_eq_cons h
    obtain ⟨u, rfl, closes, again⟩ := regular_skipScalar.cons (passing_eq_ok.mpr passed)
    obtain ⟨v, rfl, ⟨leads, ends⟩, again'⟩ := takes_afterValue read
    refine ⟨blanks ++ (c :: u ++ v), by simp, by simp, ?_, fun outermost => ?_,
      fun rest' stands _ => ?_⟩
    · exact (all.whole.leads _).append ((Whole.leads closes.outside _).append leads)
    · refine .append _ ?_
      rcases ends outermost with rfl | ends
      · simpa using closes.solid
      · exact ends.append _
    · refine skipStep_eq_ok.mpr (.inr ⟨c, u ++ (v ++ rest'), v ++ rest', ?_, list, object,
        passing_eq_ok.mp (again _ (stands.append v)), again' rest' stands⟩)
      rw [List.append_assoc, skipBlanks_append all, List.append_assoc]
      exact skipBlanks_cons solid _

/-- A value inside some brackets is passed over up to the outermost one, and a clock that is as long
as what is passed over is long enough. -/
theorem skipWithin_takes {clock text rest : List Char} {frames : List Frame}
    (read : skipWithin clock frames text = .ok rest) :
    ∃ taken, text = taken ++ rest ∧ Closes (.outside frames.length) taken ∧
      ∀ rest' clock', Replaces rest' rest → taken.length ≤ clock'.length →
        skipWithin clock' frames (taken ++ rest') = .ok rest' := by
  induction clock generalizing frames text with
  | nil => cases read
  | cons _ clock ih =>
    rw [skipWithin, bind_eq_ok] at read
    obtain ⟨⟨frames', between⟩, step, read⟩ := read
    obtain ⟨u, rfl, some, leads, solid, again⟩ := skipStep_takes step
    cases frames' with
    | nil =>
      cases read
      refine ⟨u, rfl, ⟨leads, solid rfl⟩, fun rest' clock' stands long => ?_⟩
      obtain ⟨c, clock', rfl, -⟩ := exists_clock [] some (by simpa using long)
      rw [skipWithin]
      exact bind_eq_ok.mpr ⟨_, again rest' stands (.inl rfl), rfl⟩
    | cons frame frames' =>
      obtain ⟨v, rfl, closes, again'⟩ := ih read
      refine ⟨u ++ v, by simp, .append leads closes, fun rest' clock' stands long => ?_⟩
      obtain ⟨c, clock', rfl, long'⟩ := exists_clock v some long
      have same : (v ++ rest').head? = (v ++ rest).head? := by
        have some' := closes.solid.ne_nil
        rw [List.head?_append_of_ne_nil _ some', List.head?_append_of_ne_nil _ some']
      rw [skipWithin, List.append_assoc]
      exact bind_eq_ok.mpr
        ⟨_, again _ (.inr same) (.inr same), again' rest' clock' stands long'⟩

theorem regular_skipValue : Regular (Closes (.outside 0)) (passing skipValue) := by
  intro text a rest read
  obtain ⟨u, rfl, closes, again⟩ := skipWithin_takes (passing_eq_ok.mp read)
  exact ⟨u, rfl, closes, fun rest' stands =>
    passing_eq_ok.mpr (again rest' (u ++ rest') stands (by simp))⟩

end NodeGraph.Document
