/-
The brackets of accepted input.

A rule that reads a bracket itself asks for the one of its kind that closes
it. Two things a reading does go by less. A group that is passed over ends
where as many brackets are closed as were opened, in whatever kinds; and
what comes behind `sizeof ...` is passed over as a group though no bracket
may open there. Apart from these the brackets of accepted input nest
(`accepted_bracketed`): where no closing bracket comes behind `sizeof ...`,
they nest as soon as those groups do that no node of the tree begins in,
and every group that is passed over is one of these.
-/
import FrontEnd.Proofs.Built.Flags
import FrontEnd.Proofs.Lockstep.Concatenation

namespace FrontEnd

namespace Grammar

variable {tokens : List Token} {policy : Policy} {s s' s'' : State}
  {ms ns : List Node}

-- ============================================================ on the way

/-- Without a recovery a reading goes on along the tokens. -/
theorem Built.leads (h : Built policy s ns s') (hs : s.Along tokens)
    (hclean : s'.recovered = false) : Leads tokens s s' := by
  induction h with
  | here s => exact .refl hs
  | trans _ hns ihms ihns =>
    have hle := hns.flagged.recovers.le
    rw [hclean] at hle
    have hms := ihms hs (Bool.eq_false_of_le_false hle)
    exact hms.trans (ihns hms.along hclean)
  | read _ => exact hs.reads.toLeads
  | @directive s t ts hrest ht =>
    refine .mk' hs (hs.skip [t] ts hrest ?_ rfl rfl rfl) (Nat.le_succ _)
    intro u hu
    rw [List.mem_singleton.1 hu]
    grind
  | group _ hs' =>
    obtain ⟨path, -, hcourse⟩ := (skipGroup_yields hs _).runs
    rw [hs'] at hcourse
    exact hcourse.leads hs
  | @enclosed s s' ns _ _ _ ih =>
    have hinner := ih hs.advance (s'.advance_recovered.symm.trans hclean)
    exact (hs.reads.toLeads.trans hinner).trans hinner.along.reads.toLeads
  | pack _ _ _ =>
    exact (hs.reads.toLeads.trans hs.advance.reads.toLeads).trans
      hs.advance.advance.reads.toLeads
  | node _ _ ih => exact ih hs hclean
  | retag _ _ ih => exact ih hs hclean
  | settle s => exact hs.settle
  | recover _ hs' =>
    rw [hs'] at hclean
    cases hclean

-- ============================================================ conditions

/-- Behind `sizeof ...` no closing bracket comes. -/
def PacksOpen (tokens : List Token) : Prop :=
  ∀ n < tokens.length, (tokenAt 0 (tokens.drop n)).isKeyword "sizeof" = true →
    (tokenAt 1 (tokens.drop n)).isOperator "..." = true →
    (tokenAt 2 (tokens.drop n)).closes = false

instance (tokens : List Token) : Decidable (PacksOpen tokens) :=
  inferInstanceAs (Decidable (∀ n < tokens.length,
    (tokenAt 0 (tokens.drop n)).isKeyword "sizeof" = true →
    (tokenAt 1 (tokens.drop n)).isOperator "..." = true →
    (tokenAt 2 (tokens.drop n)).closes = false))

/-- Then none comes there in a reading along the tokens. -/
theorem PacksOpen.closes_eq_false (h : PacksOpen tokens)
    (hs : s.Along tokens) (hsizeof : s.peek.isKeyword "sizeof" = true)
    (hdots : s.advance.peek.isOperator "..." = true) :
    s.advance.advance.peek.closes = false := by
  have hend : s.peek.isEnd = false := by grind
  have hend' : s.advance.peek.isEnd = false := by grind
  have hnext : s.advance.advance.peek = tokenAt 2 s.rest := by
    rw [s.advance.advance_peek hend', s.advance_of_not_end hend,
      ← tokenAt_succ]
  have hlt : s.position < tokens.length := by
    have := hs.advance.within
    rw [s.advance_position hend] at this
    have := s.position_le_mark
    omega
  have hopen := h s.position hlt
  rw [← hs.rest, ← s.peek_eq_tokenAt, ← s.advance_peek hend, ← hnext]
    at hopen
  exact hopen hsizeof hdots

/-- None of the nodes begins behind the first of some tokens. -/
def Untouched (ns : List Node) (start stop : Nat) : Prop :=
  ∀ n ∈ ns, n.first ≤ start ∨ stop ≤ n.first

/-- The groups between two places nest in which no node begins. -/
def GroupsNest (tokens : List Token) (ns : List Node) (lo hi : Nat) :
    Prop :=
  ∀ before g after, tokens = before ++ g ++ after → lo ≤ before.length →
    before.length + g.length ≤ hi → IsGroup g →
    Untouched (ns.flatMap Node.preorder) before.length
      (before.length + g.length) →
    Bracketed g

/-- Between two states brackets were read that nest, if the groups do in
which none of the nodes begins that were built. -/
structure ReadsNested (tokens : List Token) (s : State) (ns : List Node)
    (s' : State) : Prop where
  bounds : ∀ n ∈ ns.flatMap Node.preorder,
    s.position ≤ n.first ∧ n.first ≤ s'.mark.index
  nested : GroupsNest tokens ns s.position s'.position →
    ∃ ts, Consumes ts s s' ∧ Bracketed ts

namespace ReadsNested

/-- Tokens that are no brackets, and no nodes. -/
theorem plain {ts : List Token} (hconsumes : Consumes ts s s')
    (hplain : ∀ t ∈ ts, t.isBracket = false) :
    ReadsNested tokens s [] s' :=
  ⟨nofun, fun _ => ⟨ts, hconsumes, .ofPlain hplain⟩⟩

/-- The first token of a group is not in front of the next token that is
no directive. -/
theorem mark_le (hs : s.Along tokens) {before g after : List Token}
    (htokens : tokens = before ++ g ++ after) (hg : IsGroup g)
    (hlo : s.position ≤ before.length) : s.mark.index ≤ before.length := by
  obtain ⟨o, inner, c, rfl, ho, -, -⟩ := hg
  by_contra hlt
  obtain ⟨t, ht, hdirective⟩ :=
    hs.isDirective_of_lt_mark hlo (Nat.lt_of_not_le hlt)
  rw [htokens, List.append_assoc, List.getElem?_append_right (le_refl _),
    Nat.sub_self, List.append_assoc, List.cons_append,
    List.getElem?_cons_zero, Option.some.injEq] at ht
  grind

theorem append (hs' : s'.Along tokens) (hlo : s.position ≤ s'.position)
    (hhi : s'.mark.index ≤ s''.mark.index)
    (hend : s'.position ≤ s''.position)
    (hms : ReadsNested tokens s ms s') (hns : ReadsNested tokens s' ns s'') :
    ReadsNested tokens s (ms ++ ns) s'' := by
  constructor
  · rw [List.flatMap_append]
    intro n hn
    rcases List.mem_append.1 hn with hn | hn
    · have := hms.bounds n hn
      omega
    · have := hns.bounds n hn
      omega
  · intro hgroups
    unfold GroupsNest at hgroups
    rw [List.flatMap_append] at hgroups
    obtain ⟨ts, hts, hbts⟩ := hms.nested fun before g after htokens hlo' hhi'
        hg huntouched => by
      refine hgroups before g after htokens hlo' (by omega) hg ?_
      intro n hn
      rcases List.mem_append.1 hn with hn | hn
      · exact huntouched n hn
      · have := hns.bounds n hn
        omega
    obtain ⟨us, hus, hbus⟩ := hns.nested fun before g after htokens hlo' hhi'
        hg huntouched => by
      refine hgroups before g after htokens (by omega) hhi' hg ?_
      intro n hn
      rcases List.mem_append.1 hn with hn | hn
      · have := hms.bounds n hn
        have := mark_le hs' htokens hg hlo'
        omega
      · exact huntouched n hn
    exact ⟨ts ++ us, hts.trans hus, hbts.append hbus⟩

/-- A node around others, which begins no later than the token that came
when the first of them was begun. -/
theorem wrap {n : Node} (h : ReadsNested tokens s ns s')
    (hs : s.Along tokens) (hmark : s.mark.index ≤ s'.mark.index)
    (hchildren : n.children = ns) (hlo : s.position ≤ n.first)
    (hhi : n.first ≤ s.mark.index) : ReadsNested tokens s [n] s' := by
  have hpreorder : [n].flatMap Node.preorder
      = n :: ns.flatMap Node.preorder := by
    rw [List.flatMap_singleton, Node.preorder_eq, hchildren]
  constructor
  · rw [hpreorder]
    exact List.forall_mem_cons.2 ⟨⟨hlo, hhi.trans hmark⟩, h.bounds⟩
  · intro hgroups
    refine h.nested fun before g after htokens hlo' hhi' hg huntouched => ?_
    refine hgroups before g after htokens hlo' hhi' hg ?_
    rw [hpreorder]
    exact List.forall_mem_cons.2
      ⟨.inl (hhi.trans (mark_le hs htokens hg hlo')), huntouched⟩

theorem retag {n : Node} (h : ReadsNested tokens s [n] s')
    (kind : NodeKind) :
    ReadsNested tokens s [{ n with kind := kind }] s' := by
  have hpreorder (n : Node) : [n].flatMap Node.preorder
      = n :: n.children.flatMap Node.preorder := by
    rw [List.flatMap_singleton, Node.preorder_eq]
  obtain ⟨hbounds, hnested⟩ := h
  unfold GroupsNest Untouched at hnested
  rw [hpreorder] at hbounds hnested
  constructor
  · rw [hpreorder]
    exact List.forall_mem_cons.2
      ⟨hbounds n (List.mem_cons_self ..),
        fun m hm => hbounds m (List.mem_cons_of_mem _ hm)⟩
  · intro hgroups
    refine hnested fun before g after htokens hlo hhi hg huntouched => ?_
    refine hgroups before g after htokens hlo hhi hg ?_
    rw [hpreorder]
    exact List.forall_mem_cons.2
      ⟨huntouched n (List.mem_cons_self ..),
        fun m hm => huntouched m (List.mem_cons_of_mem _ hm)⟩

/-- A group that is passed over, in which no node begins. -/
theorem group {context : String} (hs : s.Along tokens)
    (hopens : s.peek.opens = true) (hskip : skipGroup context s = .ok () s') :
    ReadsNested tokens s [] s' := by
  obtain ⟨g, hg, hconsumes⟩ := skipGroup_consumes hopens hskip
  refine ⟨nofun, fun hgroups => ⟨_, hconsumes, ?_⟩⟩
  refine Nested.append (.ofPlain (takeWhile_isDirective_plain _)) ?_
  have hposition := hconsumes.position
  rw [List.length_append] at hposition
  have hlength : (tokens.take s.position
      ++ s.rest.takeWhile Token.isDirective).length = s.position
        + (s.rest.takeWhile Token.isDirective).length := by
    rw [List.length_append, List.length_take_of_le hs.within]
  have htokens : tokens = tokens.take s.position
      ++ s.rest.takeWhile Token.isDirective ++ g ++ s'.rest := by
    conv_lhs => rw [← List.take_append_drop s.position tokens, ← hs.rest,
      hconsumes.rest]
    simp only [List.append_assoc]
  exact hgroups _ g s'.rest htokens (by omega) (by omega) hg nofun

/-- What stands between two brackets of one kind. -/
theorem enclosed (h : ReadsNested tokens s.advance ns s')
    (hlo : s.position ≤ s.advance.position)
    (hhi : s'.position ≤ s'.advance.position)
    (hmark : s'.mark.index ≤ s'.advance.mark.index)
    (hopens : s.peek.opens = true)
    (hcloses : s'.peek.isPunct (closerOf s.peek) = true) :
    ReadsNested tokens s ns s'.advance := by
  refine ⟨fun n hn => ?_, fun hgroups => ?_⟩
  · have := h.bounds n hn
    omega
  · obtain ⟨ts, hts, hbracketed⟩ := h.nested
      fun before g after htokens hlo' hhi' =>
        hgroups before g after htokens (by omega) (by omega)
    have hopen : Consumes _ s s.advance := .advance (by grind)
    have hclose : Consumes _ s' s'.advance := .advance (by grind)
    refine ⟨_, hopen.trans (hts.trans hclose), ?_⟩
    have hinner : Bracketed
        (ts ++ s'.rest.takeWhile Token.isDirective) :=
      hbracketed.append (.ofPlain (takeWhile_isDirective_plain _))
    have hgroup := hinner.enclosed hopens (closes_of_closerOf hcloses) hcloses
    have hall : Bracketed (s.rest.takeWhile Token.isDirective ++ _) :=
      Nested.append (.ofPlain (takeWhile_isDirective_plain _)) hgroup
    simpa using hall

end ReadsNested

-- ============================================================= the reading

/-- Without a recovery the brackets that were read nest as far as the
groups do in which no node begins. -/
theorem Built.readsNested (h : Built policy s ns s')
    (hpacks : PacksOpen tokens) (hs : s.Along tokens)
    (hclean : s'.recovered = false) : ReadsNested tokens s ns s' := by
  induction h with
  | here s => exact .plain (.nil rfl rfl rfl rfl) nofun
  | trans hms hns ihms ihns =>
    have hle := hns.flagged.recovers.le
    rw [hclean] at hle
    have hclean' := Bool.eq_false_of_le_false hle
    have hleads := hms.leads hs hclean'
    have hleads' := hns.leads hleads.along hclean
    exact .append hleads.along hleads.position hleads'.mark hleads'.position
      (ihms hs hclean') (ihns hleads.along hclean)
  | @read s hplain =>
    cases hend : s.peek.isEnd with
    | true =>
      rw [s.advance_of_end hend]
      exact .plain (.nil rfl rfl rfl rfl) nofun
    | false =>
      refine .plain (.advance hend) fun t ht => ?_
      rcases List.mem_append.1 ht with ht | ht
      · exact takeWhile_isDirective_plain _ t ht
      · rw [List.mem_singleton.1 ht]
        exact hplain
  | @directive s t ts hrest ht =>
    have hread : Built policy s _ _ := .directive hrest ht
    have hleads := hread.leads hs hclean
    have hconsumes : Consumes [t] s
        { s with rest := ts, position := s.position + 1 } :=
      ⟨hrest, rfl, rfl, rfl⟩
    refine ReadsNested.wrap (.plain hconsumes fun u hu => ?_) hs
      hleads.mark rfl (Nat.le_refl _) s.position_le_mark
    rw [List.mem_singleton.1 hu]
    grind
  | group hopens hs' => exact .group hs hopens hs'
  | @enclosed s s' ns hopens hns hcloses ih =>
    have hclean' := s'.advance_recovered.symm.trans hclean
    have hleads := hns.leads hs.advance hclean'
    have hreads := hleads.along.reads
    exact (ih hs.advance hclean').enclosed hs.reads.position hreads.position
      hreads.mark hopens hcloses
  | pack hsizeof hdots hcloses =>
    rw [hpacks.closes_eq_false hs hsizeof hdots] at hcloses
    cases hcloses
  | node kind hns ih =>
    have hleads := hns.leads hs hclean
    exact (ih hs hclean).wrap hs hleads.mark rfl (State.position_le_mark _)
      (le_refl _)
  | retag kind _ ih => exact (ih hs hclean).retag kind
  | settle s =>
    refine .plain (.nil ?_ s.settle_position s.settle_recovered
      s.settle_errors) nofun
    unfold State.settle
    split <;> rfl
  | recover _ hs' =>
    rw [hs'] at hclean
    cases hclean

/-- The beginning of a list holds the parts that lie in it. -/
theorem take_split {before g after : List Token} {length : Nat}
    (h : tokens = before ++ g ++ after)
    (hlength : before.length + g.length ≤ length) :
    ∃ after', tokens.take length = before ++ g ++ after' := by
  rw [← List.length_append] at hlength
  rw [h, List.take_append, List.take_of_length_le hlength]
  exact ⟨_, rfl⟩

/-- What stands in front of the first mark of the end. -/
def beforeEnd (tokens : List Token) : List Token :=
  tokens.takeWhile fun t => !t.isEnd

/-- At the end all tokens in front of its mark were read, but for
directives. -/
theorem State.Along.beforeEnd_eq (hs : s.Along tokens)
    (hend : s.peek.isEnd = true) : beforeEnd tokens
      = tokens.take s.position ++ s.rest.takeWhile Token.isDirective := by
  have hrest : (s.rest.dropWhile Token.isDirective).takeWhile
      (fun t => !t.isEnd) = [] := by
    rw [s.peek_eq] at hend
    cases hdrop : s.rest.dropWhile Token.isDirective with
    | nil => rfl
    | cons t ts =>
      rw [hdrop, List.headD_cons] at hend
      rw [List.takeWhile_cons, hend]
      rfl
  have hunended : ∀ t ∈ tokens.take s.position
      ++ s.rest.takeWhile Token.isDirective, (!t.isEnd) = true := by
    intro t ht
    rcases List.mem_append.1 ht with ht | ht
    · rw [hs.unended t ht]
      rfl
    · have := List.mem_takeWhile_imp ht
      grind
  unfold beforeEnd
  conv_lhs => rw [← List.take_append_drop s.position tokens, ← hs.rest,
    ← List.takeWhile_append_dropWhile (p := Token.isDirective) (l := s.rest),
    ← List.append_assoc]
  rw [List.takeWhile_append_of_pos hunended, hrest, List.append_nil]

end Grammar

open Grammar

/-- The brackets of any tokens that are read without an error nest, each
closed by one of its own kind, if no closing bracket comes behind
`sizeof ...` and the groups nest that the tree does not look into: those in
which no node of it begins. -/
theorem accepted_bracketed (policy : Policy) (tokens : List Token)
    (haccepted : (ParseOutcome.ofTokens policy tokens).errors = [])
    (hpacks : PacksOpen tokens)
    (hgroups : ∀ before g after,
      beforeEnd tokens = before ++ g ++ after → IsGroup g →
      Untouched (ParseOutcome.ofTokens policy tokens).tree.descendants
        before.length (before.length + g.length) →
      Bracketed g) :
    Bracketed (beforeEnd tokens) := by
  obtain ⟨hnone, hclean⟩ := unit_clean haccepted
  obtain ⟨s, hbuilt, hs, hend⟩ := unit_built policy tokens
  obtain ⟨rfl, hend⟩ := hend hnone
  have hbefore := hs.beforeEnd_eq hend
  have hread := hbuilt.readsNested hpacks (.start tokens) hclean
  obtain ⟨ts, hconsumes, hbracketed⟩ := hread.nested
    fun before g after htokens _ hhi hg huntouched => by
      obtain ⟨after', hafter⟩ : ∃ after',
          tokens.take (unitSequence policy tokens).state.position
            = before ++ g ++ after' := take_split htokens hhi
      rw [hafter, List.append_assoc] at hbefore
      refine hgroups before g _ hbefore hg fun n hn => ?_
      rw [Node.descendants_eq, Node.preorder_eq] at hn
      rcases List.mem_cons.1 hn with rfl | hn
      · exact .inl (Nat.zero_le _)
      · exact huntouched n hn
  have hread : tokens.take (unitSequence policy tokens).state.position = ts := by
    rw [hconsumes.position.trans (Nat.zero_add _)]
    exact (List.prefix_iff_eq_take.1 ⟨_, hconsumes.rest.symm⟩).symm
  rw [hbefore, hread]
  exact hbracketed.append (.ofPlain (takeWhile_isDirective_plain _))

open Written Lexeme in
/-- So do those of `int f ( int a [ 3 ] ) { return sizeof ... ( a ) ; }`. -/
theorem accepted_bracketed_function :
    let tokens := heap [keyword "int", name "f", punct "(", keyword "int",
      name "a", punct "[", number "3", punct "]", punct ")", punct "\x7b",
      keyword "return", keyword "sizeof", operator "...", punct "(", name "a",
      punct ")", punct ";", punct "\x7d"] ++ [.endOfInput]
    (ParseOutcome.ofTokens .strict tokens).errors = []
      ∧ PacksOpen tokens
      ∧ (∀ before g after, beforeEnd tokens = before ++ g ++ after →
        IsGroup g →
        Untouched (ParseOutcome.ofTokens .strict tokens).tree.descendants
          before.length (before.length + g.length) → Bracketed g)
      ∧ Bracketed (beforeEnd tokens) := by
  intro tokens
  have accepted : (ParseOutcome.ofTokens .strict tokens).errors = [] := by
    decide +kernel
  have packs : PacksOpen tokens := by decide +kernel
  have groups : ∀ before g after, beforeEnd tokens = before ++ g ++ after →
      IsGroup g →
      Untouched (ParseOutcome.ofTokens .strict tokens).tree.descendants
        before.length (before.length + g.length) → Bracketed g := by
    have every : ∀ start < 19, ∀ length < 19,
        IsGroup (((beforeEnd tokens).drop start).take length) →
        Bracketed (((beforeEnd tokens).drop start).take length) := by
      decide +kernel
    intro before g after htokens hg _
    have hslice : ((beforeEnd tokens).drop before.length).take g.length = g := by
      rw [htokens, List.append_assoc, List.drop_left, List.take_left]
    have hlength : (beforeEnd tokens).length = 18 := by decide +kernel
    rw [htokens, List.length_append, List.length_append] at hlength
    have := every before.length (by omega) g.length (by omega)
    rw [hslice] at this
    exact this hg
  exact ⟨accepted, packs, groups,
    accepted_bracketed .strict tokens accepted packs groups⟩

open Written Lexeme in
/-- Not all brackets of accepted input nest: `int f ( int a ] ;` is read
without an error, since its parameter list is passed over as a group. -/
theorem accepted_unbracketed :
    ¬ ∀ (policy : Policy) (tokens : List Token),
      (ParseOutcome.ofTokens policy tokens).errors = [] →
      Bracketed (beforeEnd tokens) := by
  intro h
  have hread := h .strict (heap [keyword "int", name "f", punct "(",
    keyword "int", name "a", punct "]", punct ";"] ++ [.endOfInput])
    (by decide +kernel)
  revert hread
  decide +kernel

end FrontEnd
