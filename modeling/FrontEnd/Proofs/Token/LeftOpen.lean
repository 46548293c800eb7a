/-
A line as the text of a directive and as text of its own. In a directive
quotes and comments are found by an automaton that knows no tokens; in
plain text they belong to tokens. Here the two are run side by side, piece
by piece (`next_scanned`): the automaton is in code in front of every piece,
gets through each one that is closed and stays in the first one that is left
open, so that both find something left open or neither does
(`scan_leftOpen`).

They can only come apart at a quote that one of them takes for something
else: the automaton knows no raw strings, and it takes digits for a number
by what was emitted in front of them, while the tokens go by what was read.
`Piece.isApart` says of a piece that its quotes cannot be taken for anything
else.
-/
import FrontEnd.Proofs.Token.OneLine

namespace FrontEnd

open Text

-- ========================================================= left open

/-- Whether the problem is that something was left open. -/
def LexicalProblem.isOpen : LexicalProblem → Bool
  | openString | openRawString | openCharacter | openComment => true
  | rawDelimiter | unexpected _ => false

/-- The messages tell what is left open from everything else. -/
theorem LexicalProblem.isOpen_iff (problem : LexicalProblem) :
    problem.isOpen = true
      ↔ "Unterminated".toList <+: problem.message.toList := by
  cases problem with
  | openString | openRawString | openCharacter | openComment =>
    exact iff_of_true rfl (by decide +kernel)
  | rawDelimiter => exact iff_of_false nofun (by decide +kernel)
  | unexpected c =>
    refine iff_of_false nofun fun h => ?_
    have hmessage : "Unexpected character: '".toList
        <+: (unexpected c).message.toList := by
      show _ <+: (_ ++ _ ++ _ : String).toList
      rw [String.toList_append, String.toList_append, List.append_assoc]
      exact List.prefix_append _ _
    have := List.prefix_of_prefix_length_le h hmessage (by decide +kernel)
    revert this
    decide +kernel

/-- A raw string is left open to the end of the text, or it ends with a
quote and the suffix behind that. -/
theorem Extent.rawString_shape (read cs : List Char) :
    let e := rawString read cs
    e.problems.any (·.isOpen) = true ∧ e.reading.rest = []
      ∨ e.problems.any (·.isOpen) = false
        ∧ ∃ text suffix, (∀ c ∈ suffix, isWordPart c = true)
          ∧ e.reading.read = suffix.reverse ++ '"' :: (text.reverse ++ read)
          ∧ cs = text ++ '"' :: (suffix ++ e.reading.rest) := by
  intro e
  simp only [e]
  unfold rawString
  split
  case h_1 delimiter hdelimiter =>
    split
    case h_1 r hthrough =>
      obtain ⟨text, hread, hcs⟩ := through_closed (')' :: delimiter)
        hthrough
      rw [word, Reading.moveWhile_eq]
      refine .inr ⟨rfl, text, r.rest.takeWhile isWordPart,
        fun c hc => List.mem_takeWhile_imp hc, ?_, ?_⟩
      · rw [hread]
      · rw [List.takeWhile_append_dropWhile, ← hcs]
    case h_2 => exact .inl ⟨rfl, rfl⟩
  case h_2 =>
    split
    case h_1 r hbody =>
      have hclosed : (body false '"' read cs).2 = true := by rw [hbody]
      obtain ⟨text, hread, hcs⟩ := body_closed hclosed
      rw [hbody] at hread hcs
      exact .inr ⟨rfl, text, [], nofun, hread, hcs⟩
    case h_2 => exact .inl ⟨rfl, rfl⟩

namespace Directive

variable {inNumber : Bool} {read text : List Char} {c : Char}
  {cs : List Char}

/-- What the scan reports was left open. -/
theorem scan_isOpen {e : ProblemAt} (h : (scan cs).problem = some e) :
    e.problem.isOpen = true := by
  obtain ⟨_, hopened⟩ := scan_opened h
  have hmarked := hopened.marked
  cases hproblem : e.problem with
  | openString | openRawString | openCharacter | openComment => rfl
  | rawDelimiter | unexpected =>
    simp [hproblem, LexicalProblem.opener] at hmarked

-- ========================================================= side by side

/-- What the scan makes of a piece at the start of a text: it stays inside
of a piece that is left open, and gets through any other one. Behind it
the emitted text ends with `last`, and `rest` is what follows. -/
inductive Scanned (inNumber : Bool) (read text cs : List Char) :
    Bool → Option Char → List Char → Prop
  | inside {last : Option Char} {rest : List Char}
      (h : (scanFrom 0 .code inNumber read text cs).problem.isSome = true) :
      Scanned inNumber read text cs true last rest
  | through {inNumber' : Bool} {read' text' rest : List Char}
      (h : scanFrom 0 .code inNumber read text cs
        = scanFrom 0 .code inNumber' read' text' rest)
      (hsettled : Settled inNumber' text') :
      Scanned inNumber read text cs false text'.head? rest

/-- A character that opens nothing and plain ones behind it. -/
theorem scanned_run (inNumber : Bool) (read text : List Char)
    {tail rest : List Char} (hstring : c ≠ '"') (hcharacter : c ≠ '\'') (hcomment : opensComment c (tail ++ rest) = false)
    (hline : OneLine (c :: (tail ++ rest)))
    (hplain : ∀ d ∈ tail, isPlain d = true) :
    Scanned inNumber read text (c :: (tail ++ rest)) false
      (tail.reverse ++ [c]).head? rest := by
  have hquote : ∀ d ∈ tail, d ≠ '\'' := by
    rintro d hd rfl
    exact absurd (hplain _ hd) (by decide)
  have hliteral : opensLiteral inNumber c (tail ++ rest) = false := by
    simp [opensLiteral, hstring, hcharacter]
  have hlast : (tail.reverse ++ [c]).head?
      = (tail.reverse ++ c :: text).head? := by
    simp [List.head?_append]
  have hscan := scanFrom_plain read text hline hcomment hliteral
  rw [scanFrom_run _ _ _ hline.tail hplain] at hscan
  rw [hlast]
  exact .through hscan (settled_behind (settled_after _ _ hcharacter) hquote)

/-- A plain character and what a class of plain ones takes behind it. -/
theorem scanned_while {p : Char → Bool} (hc : isPlain c = true)
    (hp : ['\n', '\r', '/', '"', '\''].any p = false)
    (hline : OneLine (c :: cs)) :
    Scanned inNumber read text (c :: cs) false
      (Reading.moveWhile p [c] cs).read.head?
      (Reading.moveWhile p [c] cs).rest := by
  have hplain : ∀ d ∈ cs.takeWhile p, isPlain d = true :=
    fun d hd => isPlain_of hp (List.mem_takeWhile_imp hd)
  have hcomment : opensComment c cs = false := by
    simp [opensComment, ne_of_class hc (d := '/') (by decide)]
  rw [Reading.moveWhile_eq]
  rw [← List.takeWhile_append_dropWhile (p := p) (l := cs)] at hcomment hline
  have hscanned := scanned_run inNumber read text
    (ne_of_class hc (by decide)) (ne_of_class hc (by decide)) hcomment hline
    hplain
  rwa [List.takeWhile_append_dropWhile] at hscanned

/-- A literal that is closed, and a suffix behind its quote. -/
theorem scanned_suffix {quote : Char} {suffix rest read' text' front :
    List Char}
    (h : scanFrom 0 .code inNumber read text cs
      = scanFrom 0 .code false read' (quote :: text') (suffix ++ rest))
    (hline : OneLine (suffix ++ rest))
    (hsuffix : ∀ c ∈ suffix, isWordPart c = true) :
    Scanned inNumber read text cs false
      (suffix.reverse ++ quote :: front).head? rest := by
  have hplain : ∀ c ∈ suffix, isPlain c = true := fun c hc =>
    isPlain_of (by decide) (hsuffix c hc)
  have hquote : ∀ c ∈ suffix, c ≠ '\'' := by
    rintro c hc rfl
    exact absurd (hsuffix _ hc) (by decide)
  have hlast : (suffix.reverse ++ quote :: front).head?
      = (suffix.reverse ++ quote :: text').head? := by
    simp [List.head?_append]
  rw [hlast]
  exact .through (h.trans (scanFrom_run _ _ _ hline hplain))
    (settled_behind nofun hquote)

/-- A literal with plain characters in front of its quote. -/
theorem scanned_literal {run more : List Char} {quote : Char}
    (read' : List Char) (hquote : quote = '"' ∨ quote = '\'')
    (hrun : ∀ c ∈ run, isPlain c = true)
    (hopens : quote = '\'' → numberBehind inNumber text run = false)
    (hline : OneLine (run ++ quote :: more)) :
    Scanned inNumber read text (run ++ quote :: more)
      ((Extent.quoted quote read' more).problems.any (·.isOpen))
      (Extent.quoted quote read' more).reading.read.head?
      (Extent.quoted quote read' more).reading.rest := by
  have hmore : OneLine (quote :: more) := hline.suffix (List.suffix_append ..)
  have hopening : opensLiteral (numberBehind inNumber text run) quote more
      = true := by
    rcases hquote with rfl | rfl
    · rfl
    · simp [opensLiteral, hopens rfl]
  have hscan := scanFrom_run inNumber read text hline hrun
  rw [scanFrom_go (Move.openLiteral hopening).step_eq] at hscan
  unfold Extent.quoted
  rcases scanFrom_literal false (quote :: (run.reverse ++ read))
    ((some quote).toList ++ (run.reverse ++ text)) (run.reverse ++ read)
    read' hquote hmore.tail
    with ⟨hclosed, read'', text', hliteral⟩ | ⟨hopen, hproblem⟩
  · obtain ⟨body, hread, htext⟩ := Extent.body_closed hclosed
    rw [hliteral] at hscan
    generalize Extent.body true quote read' more = r at *
    obtain ⟨⟨_, rest⟩, closed⟩ := r
    obtain rfl : closed = true := hclosed
    obtain rfl := hread
    dsimp only at *
    rw [Extent.word, Reading.moveWhile_eq]
    rw [← List.takeWhile_append_dropWhile (p := isWordPart) (l := rest)]
      at hscan
    refine scanned_suffix hscan ?_ fun c hc => List.mem_takeWhile_imp hc
    rw [List.takeWhile_append_dropWhile]
    exact hmore.tail.suffix ⟨body ++ [quote], by simp [htext]⟩
  · rw [← hscan] at hproblem
    generalize Extent.body true quote read' more = r at *
    obtain ⟨r, closed⟩ := r
    obtain rfl : closed = false := hopen
    dsimp only [Extent.leftOpen]
    split <;> exact .inside hproblem

/-- A raw string with a backslash nowhere and a quote at its ends only. -/
theorem scanned_raw {run more moved : List Char} (read' : List Char)
    (hrun : ∀ c ∈ run, isPlain c = true)
    (hline : OneLine (run ++ '"' :: more))
    (hmoved : more = moved ++ (Extent.rawString read' more).reading.rest)
    (hslash : '\\' ∉ moved)
    (hcount : moved.count '"'
      = if (Extent.rawString read' more).problems.any (·.isOpen) then 0
        else 1) :
    Scanned inNumber read text (run ++ '"' :: more)
      ((Extent.rawString read' more).problems.any (·.isOpen))
      (Extent.rawString read' more).reading.read.head?
      (Extent.rawString read' more).reading.rest := by
  have hmore : OneLine ('"' :: more) := hline.suffix (List.suffix_append ..)
  have hscan := scanFrom_run inNumber read text hline hrun
  rw [scanFrom_go (Move.openLiteral rfl).step_eq] at hscan
  have hliteral := scanFrom_literal false
    ('"' :: (run.reverse ++ read))
    ((some '"').toList ++ (run.reverse ++ text)) (run.reverse ++ read) read' (.inl rfl) hmore.tail
  rcases Extent.rawString_shape read' more
    with ⟨hopen, hrest⟩ | ⟨hclosed, body, suffix, hsuffix, hread, htext⟩
  · rw [hopen] at hcount ⊢
    have hnone : '"' ∉ more := by
      rw [hmoved, hrest, List.append_nil]
      exact List.count_eq_zero.1 hcount
    rcases hliteral with ⟨hquoted, -⟩ | ⟨-, hproblem⟩
    · obtain ⟨front, -, hfront⟩ := Extent.body_closed hquoted
      exact absurd (hfront ▸ by simp) hnone
    · rw [← hscan] at hproblem
      exact .inside hproblem
  · rw [hclosed] at hcount ⊢
    have hmoved' : moved = body ++ '"' :: suffix := by
      have hboth := hmoved.symm.trans htext
      rw [← List.cons_append, ← List.append_assoc] at hboth
      exact List.append_cancel_right hboth
    have hnone : '"' ∉ body := by
      rw [hmoved', List.count_append, List.count_cons_self] at hcount
      exact List.count_eq_zero.1 (by simp at hcount; omega)
    have hbody : QuotedBody '"' body := by
      refine QuotedBody.of_forall fun c hc => ⟨?_, ?_, ?_⟩
      · rintro rfl
        exact hnone hc
      · rintro rfl
        exact hslash (hmoved' ▸ List.mem_append_left _ hc)
      · exact hmore.tail c (htext ▸ List.mem_append_left _ hc)
    have hquoted : Extent.body true '"' read' more = _ := htext ▸
      Extent.body_written read' _ (by decide) (by decide) hbody
    rcases hliteral with ⟨-, read'', text', hthrough⟩ | ⟨hopen, -⟩
    · rw [hthrough, hquoted] at hscan
      rw [hread]
      refine scanned_suffix hscan (hmore.tail.suffix ?_) hsuffix
      exact ⟨body ++ ['"'], by
        rw [List.append_assoc, List.singleton_append, ← htext]⟩
    · rw [hquoted] at hopen
      cases hopen

end Directive

-- ================================================================= pieces

namespace Piece

/-- Whether something is left open in the piece. -/
def leftOpen (p : Piece) : Bool :=
  p.problems.any (·.problem.isOpen)

/-- Whether the piece is one of those that a directive drops. -/
def isComment (p : Piece) : Bool :=
  match p.role with
  | .trivia .lineComment | .trivia .blockComment => true
  | _ => false

/-- The last character that a directive keeps of a piece and of what is
in front of it. -/
def lastKept (last : Option Char) (p : Piece) : Option Char :=
  if p.isComment then last else p.text.getLast?

/-- Whether the quotes of a piece mean in a directive what they mean in
the piece, where `last` is the last character kept in front of it. No
quote or backslash stands inside of a raw string; a character literal does
not directly follow what could be a number; and a number with separators
has no signs, begins with a digit and directly follows nothing that it
could go on from. -/
def isApart (last : Option Char) (p : Piece) : Bool :=
  match p.role with
  | .token .string =>
    !rawOpeners.any (·.isPrefixOf p.text)
      || (!p.text.contains '\\'
        && p.text.count '"' == if p.leftOpen then 1 else 2)
  | .token .character => !last.any Directive.isNumberPart
  | .token .number =>
    !p.text.contains '\''
      || (p.text.head?.any Char.isDigit && !p.text.contains '+'
        && !p.text.contains '-'
        && !last.any fun c => Directive.isNumberPart c || c == '\'')
  | _ => true

/-- Whether the quotes of all pieces do. -/
def allApart (last : Option Char) : List Piece → Bool
  | [] => true
  | p :: ps => p.isApart last && allApart (p.lastKept last) ps

variable {inNumber : Bool} {read text : List Char} {c : Char}
  {cs : List Char}

open Directive

-- ======================================================= the forms of tokens

theorem rawOpeners_plain : ∀ opener ∈ rawOpeners,
    opener = opener.dropLast ++ ['"']
      ∧ ∀ c ∈ opener.dropLast, isPlain c = true := by
  have h : ∀ opener ∈ rawOpeners, opener = opener.dropLast ++ ['"']
      ∧ opener.dropLast.all isPlain = true := by decide
  simpa only [List.all_eq_true] using h

theorem literalOpeners_plain : ∀ opener ∈ literalOpeners,
    ∃ run ∈ encodings, opener.1 = run ++ [quoteOf opener.2]
      ∧ (∀ c ∈ run, isPlain c = true)
      ∧ (opener.2 = .string ∨ opener.2 = .character) := by
  have h : ∀ opener ∈ literalOpeners,
      ∃ run ∈ encodings, opener.1 = run ++ [quoteOf opener.2]
        ∧ run.all isPlain = true
        ∧ (opener.2 = .string ∨ opener.2 = .character) := by decide
  simpa only [List.all_eq_true] using h

theorem operators_plain : ∀ op ∈ Word.operators,
    ∀ c ∈ op.toList.tail, isPlain c = true := by
  have h : ∀ op ∈ Word.operators, op.toList.tail.all isPlain = true := by
    decide +kernel
  simpa only [List.all_eq_true] using h

/-- An encoding is no number. -/
theorem encoding_number {encoding : List Char} (h : encoding ∈ encodings) :
    numberBehind false text encoding = false := by
  have hletter {c : Char} (hc : c.isDigit = false) :
      numberAfter false text c = false := by
    unfold numberAfter
    split
    · rfl
    · split
      · split
        · rfl
        · exact hc
      · rfl
  have h := encoding_cases h
  simp only [List.mem_cons, List.not_mem_nil, or_false] at h
  rcases h with rfl | rfl | rfl | rfl | rfl
  · rfl
  · rw [numberBehind, hletter (by decide)]
    rfl
  · exact hletter (c := 'u') (by decide)
  · exact hletter (c := 'U') (by decide)
  · exact hletter (c := 'L') (by decide)

/-- The scan and the token that a text begins with. -/
def TokenScanned (inNumber : Bool) (read text : List Char) (c : Char)
    (cs : List Char) (t : TokenKind × Extent) : Prop :=
  (cut (.token t.1) t.2.reading t.2.problems false).piece.isApart text.head?
      = true →
    Scanned inNumber read text (c :: cs)
      (t.2.problems.any (·.isOpen)) t.2.reading.read.head? t.2.reading.rest

theorem leftOpen_cut (role : Role) (r : Reading)
    (problems : List LexicalProblem) (fresh : Bool) :
    (cut role r problems fresh).piece.leftOpen
      = problems.any (·.isOpen) := by
  rw [leftOpen, cut, List.any_map]
  rfl

theorem lastKept_cut {role : Role} {r : Reading}
    {problems : List LexicalProblem} {fresh : Bool} {last : Option Char}
    (hline : role ≠ .trivia .lineComment)
    (hblock : role ≠ .trivia .blockComment) :
    (cut role r problems fresh).piece.lastKept last = r.read.head? := by
  have hcomment : (cut role r problems fresh).piece.isComment = false := by
    unfold isComment cut
    split <;> simp_all
  rw [lastKept, hcomment, if_neg nofun, cut, Reading.taken,
    List.getLast?_reverse]

theorem raw_scanned {opener : List Char} (hopener : opener ∈ rawOpeners)
    (hleading : opener <+: c :: cs) (hline : OneLine (c :: cs)) :
    TokenScanned inNumber read text c cs (.string,
      Extent.rawString opener.reverse ((c :: cs).drop opener.length)) := by
  intro hapart
  obtain ⟨hquote, hrun⟩ := rawOpeners_plain opener hopener
  obtain ⟨more, hmore⟩ := hleading
  generalize opener.dropLast = run at hquote hrun
  subst hquote
  rw [← hmore, List.drop_left] at hapart ⊢
  generalize hread : (run ++ ['"']).reverse = read' at hapart ⊢
  have hfrom := Extent.from_rawString read' more
  obtain ⟨moved, htaken, hrest⟩ := hfrom
  have htext : (Extent.rawString read' more).reading.taken
      = run ++ '"' :: moved := by
    rw [Reading.taken, htaken, ← hread]
    simp
  have hopen := leftOpen_cut (.token .string)
    (Extent.rawString read' more).reading
    (Extent.rawString read' more).problems false
  have hstarts : rawOpeners.any (·.isPrefixOf (run ++ '"' :: moved))
      = true := by
    refine List.any_eq_true.2 ⟨_, hopener, ?_⟩
    rw [List.isPrefixOf_iff_prefix]
    exact ⟨moved, by simp⟩
  have hapart' : ((!(run ++ '"' :: moved).contains '\\')
      && (run ++ '"' :: moved).count '"'
        == if (Extent.rawString read' more).problems.any (·.isOpen) then 1
          else 2) = true := by
    rw [← hopen]
    simpa [isApart, cut, htext, hstarts] using hapart
  have hnone : run.count '"' = 0 := by
    refine List.count_eq_zero.2 fun hquote => ?_
    exact absurd (hrun _ hquote) (by decide)
  simp only [Bool.and_eq_true, Bool.not_eq_true', beq_iff_eq] at hapart'
  obtain ⟨hslash, hcount⟩ := hapart'
  rw [List.count_append, hnone, List.count_cons_self] at hcount
  rw [List.append_assoc, List.singleton_append] at hmore ⊢
  refine scanned_raw read' hrun (hmore ▸ hline) hrest ?_ ?_
  · simp at hslash
    exact hslash.2
  · split at hcount <;> rename_i hproblems
    · rw [if_pos hproblems]
      omega
    · rw [if_neg hproblems]
      omega

theorem quoted_scanned {opener : List Char} {kind : TokenKind}
    (hopener : (opener, kind) ∈ literalOpeners)
    (hleading : opener <+: c :: cs) (hline : OneLine (c :: cs))
    (hsettled : Settled inNumber text) :
    TokenScanned inNumber read text c cs (kind, Extent.quoted (quoteOf kind)
      opener.reverse ((c :: cs).drop opener.length)) := by
  intro hapart
  obtain ⟨run, hencoding, hrun, hplain, hkind⟩ :=
    literalOpeners_plain _ hopener
  obtain rfl : opener = run ++ [quoteOf kind] := hrun
  obtain ⟨more, hmore⟩ := hleading
  rw [← hmore, List.drop_left] at hapart ⊢
  rw [List.append_assoc, List.singleton_append] at hmore ⊢
  refine scanned_literal _ ?_ hplain ?_ (hmore ▸ hline)
  · rcases hkind with rfl | rfl
    · exact .inl rfl
    · exact .inr rfl
  · intro hquote
    obtain rfl : kind = .character := by
      rcases hkind with rfl | rfl
      · cases hquote
      · rfl
    have hnone : text.head?.any isNumberPart = false := by
      simpa [isApart, cut] using hapart
    obtain rfl : inNumber = false := by
      cases inNumber with
      | false => rfl
      | true => exact absurd (hsettled rfl) (by simp [hnone])
    exact encoding_number hencoding

theorem number_scanned (hc : c.isDigit = true ∨ c = '.')
    (hline : OneLine (c :: cs)) :
    TokenScanned inNumber read text c cs
      (.number, ⟨Extent.number c [c] cs, []⟩) := by
  intro hapart
  obtain ⟨tail, htail, htaken, hrest⟩ := Extent.number_tail c [c] cs
  have hpart : isNumberPart c = true := by
    rcases hc with hc | rfl
    · exact isNumberPart_of_isAlphanum (by simp [Char.isAlphanum, hc])
    · rfl
  have hstring : c ≠ '"' := ne_of_class hpart (by decide)
  have hcharacter : c ≠ '\'' := ne_of_class hpart (by decide)
  have hcomment (ds : List Char) : opensComment c ds = false := by
    simp [opensComment, ne_of_class hpart (d := '/') (by decide)]
  have htext : (Extent.number c [c] cs).taken = c :: tail := by
    rw [Reading.taken, htaken]
    simp
  dsimp only
  rw [htaken]
  generalize (Extent.number c [c] cs).rest = rest at *
  subst hrest
  by_cases hplain : '\'' ∈ tail
  · have hapart : (c.isDigit && !(c :: tail).contains '+'
        && !(c :: tail).contains '-' && !text.head?.any fun d =>
          isNumberPart d || d == '\'') = true := by
      simpa [isApart, cut, htext, hplain] using hapart
    simp only [Bool.and_eq_true, Bool.not_eq_true'] at hapart
    obtain ⟨⟨⟨hdigit, hplus⟩, hminus⟩, hbegins⟩ := hapart
    have hafter : numberAfter inNumber text c = true := by
      rw [numberAfter, if_neg (by simpa using hcharacter), if_pos hpart,
        if_neg (by simp [hbegins]), hdigit]
    obtain ⟨hscan, hlast⟩ := scanFrom_number (c :: read)
      (c :: text) htail hline.tail (by simp at hplus; tauto)
      (by simp at hminus; tauto) hpart
    have hhead : (tail.reverse ++ [c]).head?
        = (tail.reverse ++ c :: text).head? := by
      simp [List.head?_append]
    have hliteral : opensLiteral inNumber c (tail ++ rest) = false := by
      simp [opensLiteral, hstring, hcharacter]
    have hfirst := scanFrom_plain read text hline (hcomment _) hliteral
    rw [hafter, hscan] at hfirst
    rw [hhead]
    exact .through hfirst fun _ => hlast
  · exact scanned_run _ _ _ hstring hcharacter (hcomment _) hline
      (plain_of_numberTail htail hplain)

theorem word_scanned (hc : isWordStart c = true)
    (hline : OneLine (c :: cs)) (kind : TokenKind) :
    TokenScanned inNumber read text c cs
      (kind, ⟨Extent.word [c] cs, []⟩) :=
  fun _ => scanned_while (isPlain_of (by decide) hc) (by decide) hline

theorem symbol_scanned (hstring : c ≠ '"') (hcharacter : c ≠ '\'')
    (hcomment : opensComment c cs = false) (hline : OneLine (c :: cs)) :
    TokenScanned inNumber read text c cs (symbol c cs) := by
  intro _
  unfold symbol
  cases hop : Word.longestOperator (c :: cs) with
  | none =>
    have hproblems : ∀ p : Bool, (if p then [] else
        [LexicalProblem.unexpected c]).any (·.isOpen) = false := by
      rintro (_ | _) <;> rfl
    dsimp only
    rw [hproblems]
    have hcomment : opensComment c ([] ++ cs) = false := hcomment
    exact scanned_run _ _ _ hstring hcharacter hcomment hline
      (List.forall_mem_nil _)
  | some op =>
    have hleading := List.find?_some hop
    obtain ⟨rest, hrest⟩ := List.isPrefixOf_iff_prefix.1 hleading
    have hplain := operators_plain op (List.mem_of_find?_eq_some hop)
    have hne := (operators_shape op (List.mem_of_find?_eq_some hop)).1
    dsimp only
    rw [← hrest, List.drop_left]
    cases htext : op.toList with
    | nil => exact absurd htext hne
    | cons d tail =>
      rw [htext] at hrest hplain
      obtain ⟨rfl, rfl⟩ := List.cons.inj hrest
      rw [List.reverse_cons]
      exact scanned_run _ _ _ hstring hcharacter hcomment hline hplain

/-- The scan gets through any token whose quotes it cannot mistake. -/
theorem token_scanned (read : List Char)
    (hcomment : opensComment c cs = false)
    (hline : OneLine (c :: cs)) (hsettled : Settled inNumber text) :
    TokenScanned inNumber read text c cs (token c cs) := by
  unfold token
  cases hraw : rawOpeners.find? (·.isPrefixOf (c :: cs)) with
  | some opener =>
    have hleading := List.find?_some hraw
    exact raw_scanned (List.mem_of_find?_eq_some hraw)
      (List.isPrefixOf_iff_prefix.1 hleading) hline
  | none =>
    dsimp only
    cases hliteral : literalOpeners.find? (·.1.isPrefixOf (c :: cs)) with
    | some opener =>
      have hleading := List.find?_some hliteral
      exact quoted_scanned (List.mem_of_find?_eq_some hliteral)
        (List.isPrefixOf_iff_prefix.1 hleading) hline hsettled
    | none =>
      have hquote (d : Char) (kind : TokenKind)
          (hd : ([d], kind) ∈ literalOpeners) : c ≠ d := by
        rintro rfl
        have := List.find?_eq_none.1 hliteral _ hd
        simp at this
      dsimp only
      split
      case isTrue hnumber =>
        refine number_scanned ?_ hline
        simp only [Bool.or_eq_true, Bool.and_eq_true, beq_iff_eq] at hnumber
        exact hnumber.imp_right And.left
      case isFalse =>
        split
        case isTrue hword => exact word_scanned hword hline _
        case isFalse =>
          exact symbol_scanned (hquote _ .string (by decide))
            (hquote _ .character (by decide)) hcomment hline

/-- The scan and the piece that a line begins with. -/
theorem next_scanned (read : List Char) (hline : OneLine (c :: cs))
    (hsettled : Settled inNumber text)
    (hapart : (next false c cs).piece.isApart text.head? = true) :
    Scanned inNumber read text (c :: cs) (next false c cs).piece.leftOpen
        ((next false c cs).piece.lastKept text.head?) (next false c cs).rest
      ∧ (next false c cs).fresh = false := by
  have hcuts := next_cuts false c cs
  generalize next false c cs = k at hcuts hapart ⊢
  cases hcuts with
  | blank hblank =>
    have hblank : isBlank c = true := by
      simpa [startsBlank, hline.head, hline.tail.startsBreak] using hblank
    rw [Trivia.blanks_oneLine false [] hline, Reading.moveWhile,
      if_pos hblank, lastKept_cut (by simp) (by simp)]
    exact ⟨scanned_while (isPlain_of (by decide) hblank) (by decide) hline,
      rfl⟩
  | lineComment hc hcs =>
    subst hc
    obtain ⟨ds, rfl⟩ := List.head?_eq_some_iff.1 hcs
    have hrest := Trivia.lineComment_oneLine ['/', '/'] hline.tail.tail
    refine ⟨?_, rfl⟩
    have hscan : scanFrom 0 .code inNumber read text ('/' :: '/' :: ds)
        = scanFrom 0 .code inNumber (ds.reverse ++ '/' :: '/' :: read) text
          [] := by
      rw [scanFrom_go (Move.openLine rfl).step_eq]
      exact scanFrom_lineComment hline.tail.tail
    show Scanned _ _ _ _ _ text.head?
      (Trivia.lineComment ['/', '/'] ds).rest
    rw [hrest]
    exact .through hscan hsettled
  | blockComment hc hcs =>
    subst hc
    obtain ⟨ds, rfl⟩ := List.head?_eq_some_iff.1 hcs
    have hscan : scanFrom 0 .code inNumber read text ('/' :: '*' :: ds)
        = scanFrom 0 (.blockComment read) inNumber ('*' :: '/' :: read) text
          ds :=
      scanFrom_go (Move.openBlock rfl).step_eq
    refine ⟨?_, rfl⟩
    rcases scanFrom_blockComment inNumber ('*' :: '/' :: read) text read
      ['*', '/'] hline.tail.tail with ⟨hclosed, read', hcomment⟩ | ⟨hopen, hproblem⟩
    · rw [leftOpen_cut, List.tail_cons, hclosed]
      exact .through (hscan.trans hcomment) hsettled
    · rw [leftOpen_cut, List.tail_cons, hopen]
      refine .inside ?_
      rw [hscan]
      exact hproblem
  | directive hfresh hc => cases hfresh
  | token hblank hcomment hdirective =>
    have hscanned := token_scanned read hcomment hline hsettled hapart
    rw [leftOpen_cut, lastKept_cut (by simp) (by simp)]
    exact ⟨hscanned, rfl⟩

/-- In a line whose quotes cannot be mistaken, the scan finds something
left open if one of the pieces is. -/
theorem scan_leftOpen (cs : List Char) (fresh : Bool) (hfresh : fresh = false)
    (inNumber : Bool) (read text : List Char) (hline : OneLine cs)
    (hsettled : Settled inNumber text)
    (hapart : allApart text.head? (listed fresh cs) = true) :
    (scanFrom 0 .code inNumber read text cs).problem.isSome = true
      ↔ ∃ p ∈ listed fresh cs, p.leftOpen = true := by
  induction fresh, cs using cuts_induction
    generalizing inNumber read text with
  | nil fresh =>
    rw [listed_nil]
    exact iff_of_false nofun nofun
  | cons fresh c cs ih =>
    subst hfresh
    rw [listed_cons, allApart, Bool.and_eq_true] at hapart
    obtain ⟨hfirst, hothers⟩ := hapart
    obtain ⟨hscanned, hfresh⟩ :=
      next_scanned read hline hsettled hfirst
    have hrest : OneLine (next false c cs).rest :=
      hline.suffix ⟨_, (next_append false c cs).symm⟩
    rw [listed_cons, List.exists_mem_cons_iff]
    generalize hopen : (next false c cs).piece.leftOpen = isOpen at hscanned ⊢
    generalize hlast : (next false c cs).piece.lastKept text.head? = last
      at hscanned hothers
    generalize hfollows : (next false c cs).rest = rest
      at hscanned hothers hrest ih ⊢
    cases hscanned with
    | inside hproblem => exact iff_of_true hproblem (.inl rfl)
    | through hscan hsettled' =>
      rw [hscan, ih hfresh _ _ _ hrest hsettled' hothers]
      simp

end Piece

-- ================================================================ streams

namespace TokenStream

/-- The errors of a text that tell of something left open. -/
theorem leftOpen_iff (cs : List Char) :
    (∃ e ∈ (ofText cs).errors,
        "Unterminated".toList <+: e.problem.message.toList)
      ↔ ∃ p ∈ Piece.listed true cs, p.leftOpen = true := by
  rw [← PlacedPiece.laid_pieces true .start cs]
  simp only [← LexicalProblem.isOpen_iff]
  constructor
  · rintro ⟨e, he, hopen⟩
    obtain ⟨p, hp, he⟩ := List.mem_flatMap.1 he
    obtain ⟨problem, hproblem, rfl⟩ := List.mem_map.1 he
    exact ⟨p.piece, List.mem_map_of_mem hp,
      List.any_eq_true.2 ⟨problem, hproblem, hopen⟩⟩
  · rintro ⟨p, hp, hopen⟩
    obtain ⟨q, hq, rfl⟩ := List.mem_map.1 hp
    obtain ⟨problem, hproblem, hopen⟩ := List.any_eq_true.1 hopen
    exact ⟨_, List.mem_flatMap.2 ⟨q, hq, List.mem_map_of_mem hproblem⟩,
      hopen⟩

/-- A directive in one line is all of it. -/
theorem directive_leftOpen (cs : List Char) (hline : OneLine ('#' :: cs)) :
    (∃ p ∈ Piece.listed true ('#' :: cs), p.leftOpen = true)
      ↔ (Directive.scan ('#' :: cs)).problem.isSome = true := by
  have hrest : (Directive.scan ('#' :: cs)).reading.rest = [] :=
    Directive.rest_oneLine _ _ _ _ _ hline
  rw [Piece.listed_cons, Piece.next_directive, hrest, Piece.listed_nil,
    List.exists_mem_cons_iff]
  simp only [List.not_mem_nil, false_and, exists_false, or_false]
  rw [Piece.leftOpen, Piece.ofScan]
  cases hproblem : (Directive.scan ('#' :: cs)).problem with
  | none => exact iff_of_false Bool.false_ne_true Bool.false_ne_true
  | some e => simp [Directive.scan_isOpen hproblem]

/-- A line has something left open as the text of a directive if it has by
itself, and the other way round, if its quotes mean the same in both. -/
theorem ofText_leftOpen (w : List Char) (hline : ∀ c ∈ w, isBreak c = false)
    (hapart : Piece.allApart none (Piece.ofText ("X ".toList ++ w)) = true) :
    (∃ e ∈ (ofText ("#define X ".toList ++ w)).errors,
        "Unterminated".toList <+: e.problem.message.toList)
      ↔ ∃ e ∈ (ofText ("X ".toList ++ w)).errors,
        "Unterminated".toList <+: e.problem.message.toList := by
  have hline : OneLine (' ' :: w) := List.forall_mem_cons.2 ⟨rfl, hline⟩
  -- the name by itself is a word
  have hname : Piece.next true 'X' (' ' :: w)
      = ⟨⟨.token .identifier, ['X'], []⟩, ' ' :: w, false⟩ := by
    obtain ⟨c, cs, htext, hnext⟩ := Piece.word_reads (c := 'X')
      (by decide) (List.forall_mem_nil _) (' ' :: w) rfl
    obtain ⟨rfl, rfl⟩ := List.cons.inj htext
    exact hnext true
  have hpieces : Piece.listed true ('X' :: ' ' :: w)
      = ⟨.token .identifier, ['X'], []⟩ :: Piece.listed false (' ' :: w) := by
    rw [Piece.listed_cons, hname]
  have hapart : Piece.allApart none (Piece.listed true ('X' :: ' ' :: w))
      = true := hapart
  rw [hpieces] at hapart
  -- the name of a directive is emitted with what is in front of it
  let name := ['d', 'e', 'f', 'i', 'n', 'e', ' ', 'X']
  have hdirective : OneLine ('#' :: name ++ ' ' :: w) := by
    have hname : OneLine ('#' :: name) :=
      List.all_iff_forall_prop.1 (by decide)
    intro c hc
    exact (List.mem_append.1 hc).elim (hname c) (hline c)
  have hscan : Directive.scan ('#' :: name ++ ' ' :: w)
      = Directive.scanFrom 0 .code false ('#' :: name).reverse
        ('#' :: name).reverse (' ' :: w) :=
    Directive.scanFrom_run _ _ _ hdirective
      (List.all_eq_true.1 (by decide))
  have hshared := Piece.scan_leftOpen (' ' :: w) false rfl false
    ('#' :: name).reverse ('#' :: name).reverse hline nofun hapart
  rw [leftOpen_iff, leftOpen_iff]
  refine (directive_leftOpen (name ++ ' ' :: w) hdirective).trans ?_
  show (Directive.scan ('#' :: name ++ ' ' :: w)).problem.isSome = true
    ↔ ∃ p ∈ Piece.listed true ('X' :: ' ' :: w), p.leftOpen = true
  rw [hscan, hshared, hpieces, List.exists_mem_cons_iff]
  simp [Piece.leftOpen]

/-- A number with a separator, a character literal with an encoding, a raw
string and a comment behind a quote that is escaped, and a string that is
left open. -/
theorem ofText_leftOpen_mixed :
    let w := "1'0+L'\\''/*\"*/R\"(a)\" \"b".toList
    (∀ c ∈ w, isBreak c = false)
      ∧ Piece.allApart none (Piece.ofText ("X ".toList ++ w)) = true
      ∧ ((∃ e ∈ (ofText ("#define X ".toList ++ w)).errors,
          "Unterminated".toList <+: e.problem.message.toList)
        ↔ ∃ e ∈ (ofText ("X ".toList ++ w)).errors,
          "Unterminated".toList <+: e.problem.message.toList) := by
  intro w
  have hline : ∀ c ∈ w, isBreak c = false :=
    List.all_iff_forall_prop.1 (by decide +kernel)
  have hapart : Piece.allApart none (Piece.ofText ("X ".toList ++ w))
      = true := by
    decide +kernel
  exact ⟨hline, hapart, ofText_leftOpen w hline hapart⟩

/-- A raw string that holds a quote is closed, but left open in a
directive, where the quote ends a string and the one behind it begins
another. -/
theorem leftOpen_not_shared :
    ¬∀ w : List Char, (∀ c ∈ w, isBreak c = false) →
      ((∃ e ∈ (ofText ("#define X ".toList ++ w)).errors,
          "Unterminated".toList <+: e.problem.message.toList)
        ↔ ∃ e ∈ (ofText ("X ".toList ++ w)).errors,
          "Unterminated".toList <+: e.problem.message.toList) := by
  intro h
  have hraw := h "R\"(\")\"".toList
    (List.all_iff_forall_prop.1 (by decide +kernel))
  revert hraw
  decide +kernel

end TokenStream

end FrontEnd
