/-
The three scans of template arguments.

`behindAngles` asks whether template arguments come, `skipTemplateArguments`
reads them, and `angleLength` counts their tokens. The first two count the
angle brackets that stand in no other brackets and come to the same end
(`argumentLoop_found`): the first gives up at a brace, so that a group that
it comes out of is one by number (`behindAngles_group`), as it is passed
over. The third one counts the angle brackets in other brackets as well. It
comes to that end where they pair up in each group (`angleLength_found`),
and to another end or none where they do not.

What the first scan does with a token is said once (`Scanned`), with the
tokens that it gives up at ruled out; the other two are compared with it
case by case.
-/
import FrontEnd.Proofs.Level.Group
import FrontEnd.Proofs.Lockstep.Erasure
import FrontEnd.Proofs.Word
import FrontEnd.Proofs.Written.DeclarationReading

namespace FrontEnd

namespace Grammar

open Written (argumentRound skipTemplateArguments_eq)

-- ============================================================== the scan

/-- How a scan that finds the end of template arguments goes on behind a
token. -/
inductive Scanned (window angles brackets : Nat) (t : Token)
    (ts after : List Token) : Prop
  | opening : t.isPunct "(" = true ∨ t.isPunct "[" = true →
    behindAngles window angles (brackets + 1) ts = some after →
    Scanned window angles brackets t ts after
  | closing : t.closes = true → brackets ≠ 0 →
    behindAngles window angles (brackets - 1) ts = some after →
    Scanned window angles brackets t ts after
  /-- In brackets angle brackets are not looked at. -/
  | inside : t.isBracket = false → brackets ≠ 0 →
    behindAngles window angles brackets ts = some after →
    Scanned window angles brackets t ts after
  | outside : t.isBracket = false → brackets = 0 → anglesAfter t angles ≠ 0 →
    behindAngles window (anglesAfter t angles) 0 ts = some after →
    Scanned window angles brackets t ts after
  /-- The last angle bracket is closed. -/
  | last : t.isBracket = false → brackets = 0 → anglesAfter t angles = 0 →
    ts = after → Scanned window angles brackets t ts after

variable {window angles brackets : Nat} {t : Token} {ts after : List Token}

/-- A scan that finds the end of template arguments reads a token. -/
theorem scanned (ht : t.isDirective = false)
    (h : behindAngles window angles brackets (t :: ts) = some after) :
    t.isEnd = false ∧ t.isPunct ";" = false ∧ ∃ n, window = n + 1
      ∧ Scanned n angles brackets t ts after := by
  unfold behindAngles at h
  rw [if_neg (by simp [ht])] at h
  cases window with
  | zero => cases h
  | succ window =>
    dsimp only at h
    by_cases hstop : (t.isEnd || t.isPunct ";" || t.isPunct "\x7b"
        || t.isPunct "\x7d") = true
    · rw [if_pos hstop] at h
      cases h
    rw [if_neg hstop] at h
    simp only [Bool.or_eq_true, not_or, Bool.not_eq_true] at hstop
    obtain ⟨⟨⟨hend, hsemicolon⟩, hopen⟩, hclose⟩ := hstop
    refine ⟨hend, hsemicolon, window, rfl, ?_⟩
    by_cases hopens : (t.isPunct "(" || t.isPunct "[") = true
    · rw [if_pos hopens] at h
      exact .opening (by simpa using hopens) h
    rw [if_neg hopens] at h
    by_cases hcloses : (t.isPunct ")" || t.isPunct "]") = true
    · rw [if_pos hcloses] at h
      by_cases hzero : brackets = 0
      · rw [if_pos hzero] at h
        cases h
      · rw [if_neg hzero] at h
        exact .closing (by grind) hzero h
    rw [if_neg hcloses] at h
    have hplain : t.isBracket = false := by grind
    by_cases hzero : brackets = 0
    · rw [if_pos hzero] at h
      subst hzero
      by_cases hlogical : (t.isOperator "&&" || t.isOperator "||") = true
      · rw [if_pos hlogical] at h
        cases h
      rw [if_neg hlogical] at h
      by_cases hlast : anglesAfter t angles = 0
      · rw [if_pos hlast] at h
        cases h
        exact .last hplain rfl hlast rfl
      · rw [if_neg hlast] at h
        exact .outside hplain rfl hlast h
    · rw [if_neg hzero] at h
      exact .inside hplain hzero h

/-- What the scan goes on with from inside of a group, behind its end: the
group is one by the number of its brackets. -/
theorem behindAngles_group (hbrackets : brackets ≠ 0)
    (h : behindAngles window angles brackets ts = some after) :
    ∃ n w, groupLength brackets ts = some n
      ∧ behindAngles w angles 0 (ts.drop n) = some after := by
  induction ts generalizing window brackets with
  | nil => simp [behindAngles] at h
  | cons t ts ih =>
    -- a token that does not end the group
    have goOn {k w : Nat} (hend : t.isEnd = false)
        (hdepth : depthAfter t brackets = k) (hk : k ≠ 0)
        (hnext : behindAngles w angles k ts = some after) :
        ∃ n w, groupLength brackets (t :: ts) = some n
          ∧ behindAngles w angles 0 ((t :: ts).drop n) = some after := by
      obtain ⟨n, w, hn, hrest⟩ := ih hk hnext
      refine ⟨n + 1, w, ?_, hrest⟩
      rw [groupLength, if_neg (by simp [hend]), hdepth, if_neg hk, hn]
      rfl
    by_cases ht : t.isDirective = true
    · rw [behindAngles_directive ht] at h
      exact goOn (by grind) (depthAfter_of_not_bracket (by grind) _)
        hbrackets h
    rw [Bool.not_eq_true] at ht
    obtain ⟨hend, -, w, rfl, hscanned⟩ := scanned ht h
    cases hscanned with
    | opening hopens hnext =>
      have hdepth : depthAfter t brackets = brackets + 1 := if_pos (by grind)
      exact goOn hend hdepth (Nat.succ_ne_zero brackets) hnext
    | closing hcloses _ hnext =>
      have hdepth := depthAfter_of_closes hcloses brackets
      by_cases hlast : brackets - 1 = 0
      · rw [hlast] at hdepth hnext
        refine ⟨1, w, ?_, hnext⟩
        rw [groupLength, if_neg (by simp [hend]), if_pos hdepth]
      · exact goOn hend hdepth hlast hnext
    | inside hplain _ hnext =>
      exact goOn hend (depthAfter_of_not_bracket hplain _) hbrackets hnext
    | outside _ hzero => exact absurd hzero hbrackets
    | last _ hzero => exact absurd hzero hbrackets

/-- Directives in front of the next token do not matter to the scan. -/
theorem behindAngles_dropWhile (ts : List Token) :
    behindAngles window angles brackets (ts.dropWhile Token.isDirective)
      = behindAngles window angles brackets ts := by
  induction ts with
  | nil => rfl
  | cons t ts ih =>
    by_cases ht : t.isDirective = true
    · rw [List.dropWhile_cons_of_pos ht, ih, behindAngles_directive ht]
    · rw [List.dropWhile_cons_of_neg ht]

/-- The scan ends behind an angle bracket that closes. -/
theorem behindAngles_closer (hangles : angles ≠ 0)
    (h : behindAngles window angles brackets ts = some after) :
    ∃ inner c, ts = inner ++ c :: after
      ∧ (c.isSpelled ">" = true ∨ c.isSpelled ">>" = true) := by
  induction ts generalizing window angles brackets with
  | nil => simp [behindAngles] at h
  | cons t ts ih =>
    have goOn {w a b : Nat} (ha : a ≠ 0)
        (hnext : behindAngles w a b ts = some after) :
        ∃ inner c, t :: ts = inner ++ c :: after
          ∧ (c.isSpelled ">" = true ∨ c.isSpelled ">>" = true) := by
      obtain ⟨inner, c, hts, hc⟩ := ih ha hnext
      exact ⟨t :: inner, c, congrArg (t :: ·) hts, hc⟩
    by_cases ht : t.isDirective = true
    · rw [behindAngles_directive ht] at h
      exact goOn hangles h
    rw [Bool.not_eq_true] at ht
    obtain ⟨-, -, w, rfl, hscanned⟩ := scanned ht h
    cases hscanned with
    | opening _ hnext => exact goOn hangles hnext
    | closing _ _ hnext => exact goOn hangles hnext
    | inside _ _ hnext => exact goOn hangles hnext
    | outside _ _ hopen hnext => exact goOn hopen hnext
    | last _ _ hlast hafter =>
      subst hafter
      refine ⟨[], t, rfl, ?_⟩
      by_contra hneither
      rw [not_or, Bool.not_eq_true, Bool.not_eq_true] at hneither
      rw [anglesAfter, hneither.1, hneither.2] at hlast
      split at hlast
      · omega
      · exact hangles (by simpa using hlast)

-- ============================================================ the reading

section

variable {s : State}

/-- The next token is not the end where the scan finds one. -/
theorem behindAngles_rest
    (h : behindAngles window angles brackets s.rest = some after) :
    ∃ w, s.peek.isEnd = false ∧ s.peek.isPunct ";" = false
      ∧ Scanned w angles brackets s.peek s.advance.rest after := by
  rw [← behindAngles_dropWhile] at h
  cases hrest : s.rest.dropWhile Token.isDirective with
  | nil =>
    rw [hrest] at h
    simp [behindAngles] at h
  | cons t ts =>
    have hpeek : s.peek = t := by rw [s.peek_eq, hrest, List.headD_cons]
    have ht := s.peek_isDirective
    rw [hrest, ← hpeek] at h
    obtain ⟨hend, hsemicolon, w, -, hscanned⟩ := scanned ht h
    have hts : s.advance.rest = ts := by
      rw [s.advance_of_not_end hend, hrest, List.tail_cons]
    rw [hts]
    exact ⟨w, hend, hsemicolon, hscanned⟩

/-- Reading a token that is no bracket leaves as many groups open. -/
theorem advance_plain (hend : s.peek.isEnd = false)
    (h : s.peek.isBracket = false) : s.advance = { s with
      rest := s.advance.rest, position := s.advance.position } := by
  rw [s.advance_of_not_end hend, depthAfter_of_not_bracket h]

/-- A token of the arguments that is no bracket is read. -/
theorem argumentRound_plain (hangles : angles ≠ 0)
    (hend : s.peek.isEnd = false) (hsemicolon : s.peek.isPunct ";" = false)
    (hplain : s.peek.isBracket = false) :
    argumentRound angles s
      = .ok (.again (anglesAfter s.peek angles)) s.advance := by
  unfold argumentRound
  rw [bind_eq]
  dsimp only [peek]
  rw [if_neg hangles, if_neg (by grind), if_neg (by grind), bind_eq]
  rfl

/-- A group in the arguments is passed over. -/
theorem argumentRound_group {s' : State} (hangles : angles ≠ 0)
    (hopens : s.peek.isPunct "(" = true ∨ s.peek.isPunct "[" = true)
    (hskip : skipGroup "in template arguments" s = .ok () s') :
    argumentRound angles s = .ok (.again angles) s' := by
  unfold argumentRound
  rw [bind_eq]
  dsimp only [peek]
  rw [if_neg hangles, if_pos (by simpa using hopens), bind_eq, hskip]
  rfl

/-- Template arguments are read to the end that the scan finds. -/
theorem argumentLoop_found (hs : s.Sized) (hangles : angles ≠ 0)
    (h : behindAngles window angles 0 s.rest = some after) :
    loop argumentRound angles s = .ok () { s with
      rest := after, position := s.size - after.length } := by
  induction hlength : s.rest.length using Nat.strongRecOn
    generalizing window angles s with
  | _ length ih =>
    obtain ⟨w, hend, hsemicolon, hscanned⟩ := behindAngles_rest h
    have hpassed := passed_advance hend
    have hs' := hs.advance hend
    have hsize := advance_size hend
    have hread (hplain : s.peek.isBracket = false) :
        loop argumentRound angles s
          = loop argumentRound (anglesAfter s.peek angles) s.advance :=
      loop_moved (argumentRound_plain hangles hend hsemicolon hplain)
        hpassed.position_lt hs' hsize
    cases hscanned with
    | opening hopens hnext =>
      have hopen : s.peek.opens = true := by grind
      obtain ⟨n, w, hn, hrest⟩ :=
        behindAngles_group (Nat.succ_ne_zero 0) hnext
      obtain ⟨hmoved, hgroup⟩ := skipGroup_moved hs hopen hn
      have hskip := argumentRound_group hangles hopens
        (skipGroup_found hs hopen hn)
      have hbehind : behindAngles w angles 0
          ((s.rest.dropWhile Token.isDirective).drop (n + 1))
            = some after := by
        rw [dropWhile_isDirective_opener hopen, List.drop_succ_cons]
        exact hrest
      have hshorter : ((s.rest.dropWhile Token.isDirective).drop
          (n + 1)).length < length := by
        unfold State.Sized at hs hgroup
        dsimp only at hgroup hmoved
        omega
      rw [loop_moved hskip hmoved hgroup rfl]
      exact ih _ hshorter hgroup hangles hbehind rfl
    | closing _ hzero => exact absurd rfl hzero
    | inside _ hzero => exact absurd rfl hzero
    | outside hplain _ hopen hnext =>
      rw [hread hplain, ih _ (hlength ▸ hpassed.length_lt) hs' hopen hnext
        rfl, advance_plain hend hplain]
    | last hplain _ hlast hafter =>
      have hposition : s.advance.position = s.size - after.length := by
        unfold State.Sized at hs'
        rw [← hafter]
        omega
      rw [hread hplain, hlast, loop_eq]
      show EStateM.Result.ok () s.advance = _
      rw [advance_plain hend hplain, hposition, hafter]

end

-- =========================================================== the counting

/-- Whether the angle brackets in other brackets pair up: `brackets` are
open, and in the outermost of them `angles`. -/
def anglesPair (brackets angles : Nat) : List Token → Bool
  | [] => true
  | t :: ts =>
    if t.opens then anglesPair (brackets + 1) angles ts
    else if t.closes then
      (brackets != 1 || angles == 0) && anglesPair (brackets - 1) angles ts
    else if brackets = 0 then anglesPair 0 angles ts
    else (!t.isSpelled ">" || 1 ≤ angles)
      && (!t.isSpelled ">>" || 2 ≤ angles)
      && anglesPair brackets (anglesAfter t angles) ts

/-- Only operators change the number of open angle brackets. -/
theorem anglesAfter_eq (h : t.kind ≠ .operator) (angles : Nat) :
    anglesAfter t angles = angles := by
  unfold anglesAfter
  grind

theorem anglesPair_directive (ht : t.isDirective = true) (pending : Nat) :
    anglesPair brackets pending (t :: ts)
      = anglesPair brackets pending ts := by
  rw [anglesPair, if_neg (by grind), if_neg (by grind),
    anglesAfter_eq (by grind)]
  grind

/-- The count goes on behind a token behind which an angle bracket is
open. -/
theorem angleLength_again (ht : t.isDirective = false)
    (hend : t.isEnd = false) (hopen : anglesAfter t angles ≠ 0) :
    angleLength (window + 1) angles (t :: ts)
      = (angleLength window (anglesAfter t angles) ts).map (· + 1) := by
  rw [angleLength, if_neg (by simp [ht]), if_neg (by simp [hend]),
    if_neg (by simp [hopen])]

theorem angleLength_dropWhile (ts : List Token) :
    angleLength window angles (ts.dropWhile Token.isDirective)
      = angleLength window angles ts := by
  induction ts with
  | nil => rfl
  | cons t ts ih =>
    by_cases ht : t.isDirective = true
    · rw [List.dropWhile_cons_of_pos ht, ih, angleLength_directive ht]
    · rw [List.dropWhile_cons_of_neg ht]

/-- Where the angle brackets in other brackets pair up, the count of all of
them comes to the end that the scan finds. -/
theorem angleLength_found (hangles : angles ≠ 0)
    (h : behindAngles window angles brackets ts = some after) :
    ∃ args, ts = args ++ after ∧ ∀ pending, (brackets = 0 → pending = 0) →
      anglesPair brackets pending args = true →
      angleLength window (angles + pending) ts
        = some (visible args).length := by
  induction ts generalizing window angles brackets with
  | nil => simp [behindAngles] at h
  | cons t ts ih =>
    by_cases ht : t.isDirective = true
    · rw [behindAngles_directive ht] at h
      obtain ⟨args, rfl, hlength⟩ := ih hangles h
      refine ⟨t :: args, rfl, fun pending hpending hpair => ?_⟩
      rw [anglesPair_directive ht] at hpair
      rw [angleLength_directive ht, visible_cons_of_directive ht,
        hlength pending hpending hpair]
    rw [Bool.not_eq_true] at ht
    obtain ⟨hend, -, w, rfl, hscanned⟩ := scanned ht h
    -- a token behind which an angle bracket of the scan is open
    have goOn {angles' brackets' : Nat} (hangles' : angles' ≠ 0)
        (hnext : behindAngles w angles' brackets' ts = some after)
        (hcount : ∀ pending args, (brackets = 0 → pending = 0) →
          anglesPair brackets pending (t :: args) = true →
          ∃ pending', (brackets' = 0 → pending' = 0)
            ∧ anglesPair brackets' pending' args = true
            ∧ anglesAfter t (angles + pending) = angles' + pending') :
        ∃ args, t :: ts = args ++ after
          ∧ ∀ pending, (brackets = 0 → pending = 0) →
            anglesPair brackets pending args = true →
            angleLength (w + 1) (angles + pending) (t :: ts)
              = some (visible args).length := by
      obtain ⟨args, rfl, hlength⟩ := ih hangles' hnext
      refine ⟨t :: args, rfl, fun pending hpending hpair => ?_⟩
      obtain ⟨pending', hpending', hpair', hafter⟩ :=
        hcount pending args hpending hpair
      rw [angleLength_again ht hend (by omega), hafter,
        hlength pending' hpending' hpair', visible_cons ht,
        List.length_cons, Option.map_some]
    cases hscanned with
    | opening hopens hnext =>
      refine goOn hangles hnext fun pending args hpending hpair => ?_
      rw [anglesPair, if_pos (by grind)] at hpair
      exact ⟨pending, fun hzero => absurd hzero (Nat.succ_ne_zero brackets),
        hpair, anglesAfter_eq (by grind) _⟩
    | closing hcloses hbrackets hnext =>
      refine goOn hangles hnext fun pending args hpending hpair => ?_
      rw [anglesPair, if_neg (by grind), if_pos hcloses] at hpair
      obtain ⟨hlast, hpair⟩ := Bool.and_eq_true_iff.1 hpair
      refine ⟨pending, fun hzero => ?_, hpair, anglesAfter_eq (by grind) _⟩
      have hone : brackets = 1 := by omega
      simpa [hone] using hlast
    | inside hplain hbrackets hnext =>
      refine goOn hangles hnext fun pending args hpending hpair => ?_
      rw [anglesPair, if_neg (by grind), if_neg (by grind),
        if_neg hbrackets] at hpair
      obtain ⟨hpaired, hpair⟩ := Bool.and_eq_true_iff.1 hpair
      refine ⟨anglesAfter t pending, fun hzero => absurd hzero hbrackets,
        hpair, ?_⟩
      unfold anglesAfter
      grind
    | outside hplain hzero hopen hnext =>
      refine goOn hopen hnext fun pending args hpending hpair => ?_
      obtain rfl := hpending hzero
      rw [anglesPair, if_neg (by grind), if_neg (by grind),
        if_pos hzero] at hpair
      exact ⟨0, fun _ => rfl, hpair, rfl⟩
    | last hplain hzero hlast hafter =>
      subst hafter
      refine ⟨[t], rfl, fun pending hpending _ => ?_⟩
      obtain rfl := hpending hzero
      have hoperator : t.kind = .operator := by
        by_contra hother
        exact hangles ((anglesAfter_eq hother angles).symm.trans hlast)
      rw [angleLength, if_neg (by simp [ht]), if_neg (by simp [hend]),
        if_pos (by simp [hoperator, hlast]), visible_cons ht]
      rfl

-- =============================================================== together

/-- Template arguments are ahead only where the scan finds their end behind
an opening angle bracket. -/
theorem opensArguments_found {declaration : Bool}
    (h : opensArguments declaration ts = true) :
    ∃ t us after, ts.dropWhile Token.isDirective = t :: us
      ∧ t.isSpelled "<" = true
      ∧ behindAngles argumentWindow 1 0 us = some after := by
  unfold opensArguments at h
  rw [significant_eq] at h
  cases hrest : ts.dropWhile Token.isDirective with
  | nil =>
    rw [hrest] at h
    cases h
  | cons t us =>
    rw [hrest] at h
    obtain ⟨hopen, hahead⟩ := Bool.and_eq_true_iff.1 h
    cases hafter : behindAngles argumentWindow 1 0 us with
    | none =>
      rw [hafter] at hahead
      cases hahead
    | some after =>
      refine ⟨t, us, after, rfl, ?_, hafter⟩
      rw [Token.isOperator, Bool.and_eq_true, beq_iff_eq, beq_iff_eq,
        Word.canonical_eq_iff (by decide)] at hopen
      rw [Token.isSpelled, hopen.1, hopen.2]
      rfl

/-- Template arguments are read to the end that the scan finds behind the
opening angle bracket. -/
theorem skipTemplateArguments_found {s : State} {us : List Token}
    (hs : s.Sized) (hrest : s.rest.dropWhile Token.isDirective = t :: us)
    (hopen : t.isSpelled "<" = true)
    (h : behindAngles argumentWindow 1 0 us = some after) :
    skipTemplateArguments s = .ok () { s with
      rest := after, position := s.size - after.length } := by
  have hpeek : s.peek = t := by rw [s.peek_eq, hrest, List.headD_cons]
  have hend : s.peek.isEnd = false := by grind
  have hplain : s.peek.isBracket = false := by grind
  have hbehind : s.advance.rest = us := by
    rw [s.advance_of_not_end hend, hrest, List.tail_cons]
  rw [skipTemplateArguments_eq, bind_eq]
  dsimp only [advance]
  rw [argumentLoop_found (hs.advance hend) Nat.one_ne_zero (hbehind ▸ h),
    advance_size hend, advance_plain hend hplain]

end Grammar

open Grammar

/-- Where template arguments are ahead, in any tokens and from any of them
on, the scan that says so ends behind an angle bracket that closes, and the
arguments are read, in whatever groups, exactly through that bracket. It is
also the one that the count of all angle brackets ends at, if those in other
brackets pair up. -/
theorem arguments_scanned (declaration : Bool) (tokens : List Token)
    (offset : Nat)
    (h : opensArguments declaration (tokensFrom offset tokens) = true) :
    let ts := (tokensFrom offset tokens).dropWhile Token.isDirective
    ∃ args after, ts = args ++ after
      ∧ args.getLast?.any (fun c => c.isSpelled ">" || c.isSpelled ">>")
        = true
      ∧ behindAngles argumentWindow 1 0 ts.tail = some after
      ∧ (∀ s : State, s.Sized → s.rest.dropWhile Token.isDirective = ts →
        skipTemplateArguments s = .ok () { s with
          rest := after, position := s.mark.index + args.length })
      ∧ (anglesPair 0 0 args = true →
        angleLength (declarationWindow + 1) 0 (tokensFrom offset tokens)
          = some (visible args).length) := by
  intro ts
  obtain ⟨t, us, after, hdrop, hopen, hbehind⟩ := opensArguments_found h
  have hts : ts = t :: us := hdrop
  obtain ⟨inner, c, hus, hc⟩ := behindAngles_closer Nat.one_ne_zero hbehind
  have hsplit : ts = t :: inner ++ [c] ++ after := by
    rw [hts, hus, List.append_cons]
    rfl
  refine ⟨t :: inner ++ [c], after, hsplit, ?_, ?_, fun s hs hrest => ?_,
    fun hpair => ?_⟩
  · rw [List.getLast?_concat, Option.any_some, Bool.or_eq_true]
    exact hc
  · rw [hts]
    exact hbehind
  · have hlength := congrArg List.length (List.takeWhile_append_dropWhile
      (p := Token.isDirective) (l := s.rest))
    have hmark := s.mark_index
    have hposition : s.size - after.length
        = s.mark.index + (t :: inner ++ [c]).length := by
      rw [hrest, hsplit, List.length_append, List.length_append] at hlength
      unfold State.Sized at hs
      omega
    rw [skipTemplateArguments_found hs (hrest.trans hts) hopen hbehind,
      hposition]
  · obtain ⟨args, hargs, hcount⟩ := angleLength_found Nat.one_ne_zero hbehind
    obtain rfl : args = inner ++ [c] := by
      rw [hus, List.append_cons] at hargs
      exact (List.append_cancel_right hargs).symm
    have hplain : t.opens = false ∧ t.closes = false := by grind
    rw [List.cons_append, anglesPair, if_neg (by simp [hplain]),
      if_neg (by simp [hplain]), if_pos rfl] at hpair
    have hlength : angleLength declarationWindow 1 us
        = some (visible (inner ++ [c])).length :=
      hcount 0 (fun _ => rfl) hpair
    have hafter : anglesAfter t 0 = 1 := by rw [anglesAfter, if_pos hopen]
    rw [← angleLength_dropWhile, hdrop,
      angleLength_again (by grind) (by grind) (by omega), hafter, hlength,
      List.cons_append, visible_cons (by grind)]
    rfl

open Written Lexeme in
/-- So it is in `a < ( b < c > d ) > x ;`, behind the first name. -/
theorem arguments_scanned_group :
    let tokens := heap [name "a", operator "<", punct "(", name "b",
      operator "<", name "c", operator ">", name "d", punct ")",
      operator ">", name "x", punct ";"]
    let s := { State.start tokens with rest := tokens.drop 1, position := 1 }
    opensArguments true (tokensFrom 1 tokens) = true
      ∧ s.Sized
      ∧ skipTemplateArguments s = .ok () { s with
        rest := tokens.drop 10, position := 10 }
      ∧ anglesPair 0 0 ((tokens.drop 1).take 9) = true
      ∧ angleLength (declarationWindow + 1) 0 (tokensFrom 1 tokens)
        = some 9 := by
  intro tokens s
  have ahead : opensArguments true (tokensFrom 1 tokens) = true := by
    decide +kernel
  have sized : s.Sized := rfl
  have finds : behindAngles argumentWindow 1 0 (tokens.drop 2)
      = some (tokens.drop 10) := by decide +kernel
  have pairs : anglesPair 0 0 ((tokens.drop 1).take 9) = true := by
    decide +kernel
  obtain ⟨args, after, split, -, behind, reads, counts⟩ :=
    arguments_scanned true tokens 1 ahead
  obtain rfl : tokens.drop 10 = after :=
    Option.some.inj (finds.symm.trans behind)
  obtain rfl : (tokens.drop 1).take 9 = args :=
    List.append_cancel_right split
  exact ⟨ahead, sized, reads s sized rfl, pairs, counts pairs⟩

open Written Lexeme in
/-- In `a < ( b < c ) > x ;` the angle bracket in the parentheses is counted
and not closed, so that the count finds no end. -/
theorem arguments_not_scanned :
    ¬ ∀ (declaration : Bool) (tokens : List Token) (offset : Nat)
      (args after : List Token),
      opensArguments declaration (tokensFrom offset tokens) = true →
      let ts := (tokensFrom offset tokens).dropWhile Token.isDirective
      ts = args ++ after →
      behindAngles argumentWindow 1 0 ts.tail = some after →
      angleLength (declarationWindow + 1) 0 (tokensFrom offset tokens)
        = some (visible args).length := by
  intro hcount
  let tokens := heap [name "a", operator "<", punct "(", name "b",
    operator "<", name "c", punct ")", operator ">", name "x", punct ";"]
  have hlength := hcount true tokens 1 ((tokens.drop 1).take 7)
    (tokens.drop 8) (by decide +kernel) (by decide +kernel)
    (by decide +kernel)
  revert hlength
  decide +kernel

end FrontEnd
