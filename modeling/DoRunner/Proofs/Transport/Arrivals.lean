import Mathlib.Data.List.Forall2
import DoRunner.Proofs.Source.Line
import DoRunner.Proofs.Transport.ConsoleReplies
import DoRunner.Proofs.Transport.Spool

/-!
# Replies that arrive in pieces

What a console prints arrives in pieces, and where one ends is an accident. A piece may end between
a carriage return and its line feed, behind output that looks like the prompt, or in the middle of a
line. The reply is the same for all of them (`readReply_of_arrived`).

At any time what has been read is a beginning of the reply, with its carriage returns dropped: they
can be dropped piece by piece where no two of them stand before a line feed
(`dropCarriageReturns_twice`). A beginning that ends like the prompt is no reply while more has
arrived; and the last line of a beginning is the beginning of a line, so it is not taken for the
pager where no line of the reply begins with the pager's mark (`atPager_of_prefix`).
-/

namespace DoRunner

/-! ## Lines of beginnings -/

namespace Text

/-- A line of a beginning begins a line. -/
theorem exists_line_of_prefix {s t line : Text} (within : s <+: t) (h : line ∈ lines s) :
    ∃ longer ∈ lines t, line <+: longer := by
  obtain ⟨more, rfl⟩ := within
  have parts := splitAt_lastPart '\n' s
  obtain ⟨first, back, cut⟩ := List.exists_cons_of_ne_nil (lines_ne_nil more)
  have joined : lines (s ++ more) = (lines s).dropLast ++ (lastPart '\n' s ++ first) :: back :=
    (splitAt_append parts).2 cut
  have place : line ∈ (lines s).dropLast ∨ line = lastPart '\n' s := by
    rw [lines, parts] at h
    rcases List.mem_append.mp h with m | m
    · exact .inl m
    · exact .inr (List.mem_singleton.mp m)
  rw [joined]
  rcases place with m | rfl
  · exact ⟨line, List.mem_append_left _ m, List.prefix_rfl⟩
  · exact ⟨_, List.mem_append_right _ List.mem_cons_self, List.prefix_append _ _⟩

end Text

namespace Terminal

theorem head?_dropCarriageReturns {t : Text} (h : ∀ rest, t ≠ '\r' :: '\n' :: rest) :
    (dropCarriageReturns t).head? = t.head? := by
  cases t with
  | nil => rfl
  | cons c t =>
    rw [dropCarriageReturns.eq_2 _ _ fun rest hc ht => h rest (by rw [hc, ht])]
    rfl

/-- **Carriage returns that were dropped can be dropped again** behind more output, as long as no
two of them stand before a line feed. -/
theorem dropCarriageReturns_twice {s t : Text} (once : ¬ "\r\r\n".toList <:+: s ++ t) :
    dropCarriageReturns (dropCarriageReturns s ++ t) = dropCarriageReturns (s ++ t) := by
  fun_induction dropCarriageReturns s with
  | case1 s ih =>
    have inner : ¬ "\r\r\n".toList <:+: s ++ t := fun inside =>
      once (inside.trans ((List.suffix_cons _ _).trans (List.suffix_cons _ _)).isInfix)
    rw [List.cons_append, dropCarriageReturns_cons_of_ne (by decide), ih inner, List.cons_append,
      List.cons_append, dropCarriageReturns]
  | case2 c s stays ih =>
    have inner : ¬ "\r\r\n".toList <:+: s ++ t := fun inside =>
      once (inside.trans (List.suffix_cons _ _).isInfix)
    cases s with
    | nil => rfl
    | cons d s =>
      -- a carriage return before what was a carriage return and a line feed would be dropped now
      have same : c = '\r' → (dropCarriageReturns (d :: s)).head? = some d := by
        rintro rfl
        apply head?_dropCarriageReturns
        intro rest he
        apply once
        rw [he]
        exact ⟨[], rest ++ t, rfl⟩
      have first : c = '\r' → (dropCarriageReturns (d :: s) ++ t).head? ≠ some '\n' := by
        intro hc he
        rw [List.head?_append, same hc] at he
        exact stays s hc (by rw [Option.some.inj he])
      have next : c = '\r' → (d :: s ++ t).head? ≠ some '\n' := fun hc he =>
        stays s hc (by rw [Option.some.inj he])
      calc dropCarriageReturns (c :: dropCarriageReturns (d :: s) ++ t)
          = c :: dropCarriageReturns (dropCarriageReturns (d :: s) ++ t) :=
            dropCarriageReturns_cons first
        _ = c :: dropCarriageReturns (d :: s ++ t) := by rw [ih inner]
        _ = dropCarriageReturns (c :: d :: s ++ t) := (dropCarriageReturns_cons next).symm
  | case3 => rfl

/-- Dropping carriage returns shortens lines at their ends, and no line is lost. -/
theorem forall₂_lines_dropCarriageReturns (t : Text) :
    List.Forall₂ (· <+: ·) (Text.lines (dropCarriageReturns t)) (Text.lines t) := by
  fun_induction dropCarriageReturns t with
  | case1 t ih => exact .cons (List.nil_prefix) ih
  | case2 c t stays ih =>
    unfold Text.lines at ih ⊢
    rw [Text.splitAt, Text.splitAt]
    by_cases lf : c = '\n'
    · rw [if_pos lf, if_pos lf]
      exact .cons List.prefix_rfl ih
    · rw [if_neg lf, if_neg lf]
      generalize Text.splitAt '\n' (dropCarriageReturns t) = shorter at ih
      generalize Text.splitAt '\n' t = longer at ih
      cases ih with
      | nil => exact .cons List.prefix_rfl .nil
      | cons first others => exact .cons ((List.prefix_cons_inj c).mpr first) others
  | case3 => exact .cons List.prefix_rfl .nil

theorem exists_line_of_dropCarriageReturns {t line : Text}
    (h : line ∈ Text.lines (dropCarriageReturns t)) : ∃ longer ∈ Text.lines t, line <+: longer := by
  have shortened := forall₂_lines_dropCarriageReturns t
  generalize Text.lines (dropCarriageReturns t) = kept at shortened h
  generalize Text.lines t = whole at shortened ⊢
  induction shortened with
  | nil => exact absurd h List.not_mem_nil
  | @cons shorter longer others more first rest ih =>
    rcases List.mem_cons.mp h with rfl | m
    · exact ⟨longer, List.mem_cons_self, first⟩
    · obtain ⟨found, hfound, begins⟩ := ih m
      exact ⟨found, List.mem_cons_of_mem _ hfound, begins⟩

end Terminal

namespace Console

/-! ## Beginnings of a reply -/

/-- **A beginning of a reply is not taken for the pager** where no line of the reply begins with its
mark. -/
theorem atPager_of_prefix {s reply : Text} (within : s <+: reply)
    (unpaged : ∀ line ∈ Text.lines reply, Text.startsWith moreMarker (Text.trimStart line) = false) :
    atPager (Terminal.dropCarriageReturns s) = false := by
  rw [Bool.eq_false_iff]
  intro pages
  have marked := beq_iff_eq.mp pages
  generalize hlast : (Text.lines (Text.trimEnd (Terminal.dropCarriageReturns s))).getLastD [] = last
    at marked
  have m : last ∈ Text.lines (Text.trimEnd (Terminal.dropCarriageReturns s)) := by
    rw [← hlast, List.getLastD_eq_getLast?,
      List.getLast?_eq_some_getLast (Text.lines_ne_nil _)]
    exact List.getLast_mem _
  -- the line that is looked at begins a line of the reply
  obtain ⟨shown, hshown, first⟩ := Text.exists_line_of_prefix (Text.trimEnd_isPrefix _) m
  obtain ⟨printed, hprinted, second⟩ := Terminal.exists_line_of_dropCarriageReturns hshown
  obtain ⟨line, hline, third⟩ := Text.exists_line_of_prefix within hprinted
  obtain ⟨rest, rfl⟩ := (first.trans second).trans third
  have inked : Text.blank last = false := by
    rw [Bool.eq_false_iff]
    intro blank
    rw [Text.trimStart_of_blank blank] at marked
    exact absurd marked (by decide)
  have begins : Text.startsWith moreMarker (Text.trimStart (last ++ rest)) = true := by
    rw [Text.trimStart_append_of_not_blank inked, marked]
    exact Text.startsWith_iff.mpr ⟨rest, rfl⟩
  exact absurd (begins.symm.trans (unpaged _ hline)) (by decide)

/-! ## Reading what has arrived -/

section Reading

variable {σ : Type} [LineChannel σ]

/-- Pieces that have arrived: each read delivers the next of them, however long it would wait, and
behind the last there is silence. The number is the time that their reads take. -/
inductive Arrived : List Text → Nat → Host σ → Host σ → Prop where
  /-- All pieces have been read. -/
  | silence {took : Nat} {h h' : Host σ} (quiet : LineChannel.read 0 h = .ok ⟨none, took⟩ h') :
      Arrived [] 0 h h'
  /-- A piece can be read, and then the others. -/
  | piece {first : Text} {pieces : List Text} {took time : Nat} {h h₁ h' : Host σ}
      (delivered : ∀ wait, LineChannel.read wait h = .ok ⟨some first, took⟩ h₁)
      (rest : Arrived pieces time h₁ h') : Arrived (first :: pieces) (max 1 took + time) h h'

/-- A piece that has arrived is read, at a prompt as anywhere else, but not behind the pager. -/
theorem readReply_of_piece {c : Call σ} {first : Text} {took : Nat} {h₁ : Host σ}
    (inTime : 0 < c.left) (going : atPager c.buffer = false)
    (delivered : ∀ wait, LineChannel.read wait c.host = .ok ⟨some first, took⟩ h₁) :
    readReply c = readReply ((c.after h₁ (max 1 took)).append first) := by
  have reads (wait : Nat) : Call.read wait c = .ok (some first) (c.after h₁ (max 1 took)) := by
    rw [Call.read, delivered wait]
  rw [readReply]
  by_cases ready : atPrompt c.buffer = true
  · rw [if_pos ready, reads 0]
  · rw [if_neg ready, if_neg (by simp [going])]
    split
    · rename_i e he
      rw [timeLeft_of_pos inTime] at he
      exact absurd he (by simp)
    · rename_i left he
      rw [reads (min left readSlice)]

/-- Where a beginning of a reply has been read, reading goes on to its end. -/
theorem readReply_of_begun {front s : Text} {pieces : List Text} {time : Nat} {h' : Host σ}
    {c : Call σ} (begun : c.buffer = Terminal.dropCarriageReturns s)
    (arrived : Arrived pieces time c.host h') (inTime : time ≤ c.left)
    (whole : s ++ pieces.flatten = front ++ readyPrompt)
    (once : ¬ "\r\r\n".toList <:+: front ++ readyPrompt)
    (unpaged : ∀ line ∈ Text.lines (front ++ readyPrompt),
      Text.startsWith moreMarker (Text.trimStart line) = false) :
    ∃ elapsed, readReply c
      = .ok (.prompt (Terminal.dropCarriageReturns (front ++ ['\n'])))
          { c with host := h', buffer := [], elapsed } := by
  generalize hhost : c.host = host at arrived
  -- induction on what is still to arrive; the buffer stays what was read, with LF line ends
  induction arrived generalizing c s with
  | @silence took host h' quiet =>
    rw [List.flatten_nil, List.append_nil] at whole
    have ready : c.buffer = Terminal.dropCarriageReturns (front ++ ['\n']) ++ ". ".toList := by
      rw [begun, whole]
      exact Terminal.dropCarriageReturns_append_lf front ". ".toList
    have atEnd : atPrompt c.buffer = true := by
      obtain ⟨shown, ended⟩ := Terminal.dropCarriageReturns_ends_lf front
      rw [ready, ended, List.append_assoc]
      exact Text.endsWith_append readyPrompt shown
    rw [← hhost] at quiet
    exact ⟨c.elapsed + max 1 took, readReply_of_prompt ready atEnd quiet⟩
  | @piece first pieces took time host h₁ h' delivered rest ih =>
    rw [List.flatten_cons, ← List.append_assoc] at whole
    have within : s ++ first <+: front ++ readyPrompt := ⟨pieces.flatten, whole⟩
    have going : atPager c.buffer = false := by
      rw [begun]
      exact atPager_of_prefix ((List.prefix_append s first).trans within) unpaged
    rw [← hhost] at delivered
    rw [readReply_of_piece (by omega) going delivered]
    refine ih (c := (c.after h₁ (max 1 took)).append first) ?_ ?_ whole rfl
    · show Terminal.dropCarriageReturns (c.buffer ++ first) = _
      rw [begun]
      exact Terminal.dropCarriageReturns_twice fun inside => once (inside.trans within.isInfix)
    · simp only [Call.left, Call.append, Call.after] at inTime ⊢
      omega

/-- **A reply does not depend on how it is cut into pieces.** When it ends with the prompt, holds no
two carriage returns before a line feed, and no line of it begins with the mark of the pager, then
reading it in any pieces that arrive in time gives what stands before the prompt, with line feeds
for its line ends, and leaves nothing behind. -/
theorem readReply_of_arrived {c : Call σ} (empty : c.buffer = []) {pieces : List Text} {time : Nat}
    {h' : Host σ} (arrived : Arrived pieces time c.host h') (inTime : time ≤ c.left) {front : Text}
    (ends : pieces.flatten = front ++ readyPrompt) (once : ¬ "\r\r\n".toList <:+: pieces.flatten)
    (unpaged : ∀ line ∈ Text.lines pieces.flatten,
      Text.startsWith moreMarker (Text.trimStart line) = false) :
    ∃ elapsed, readReply c
      = .ok (.prompt (Terminal.dropCarriageReturns (front ++ ['\n'])))
          { c with host := h', buffer := [], elapsed } := by
  rw [ends] at once unpaged
  exact readReply_of_begun (s := []) empty arrived inTime ends once unpaged

end Reading

/-- A call to which three pieces of a reply have come: one that ends in the middle of a line end, one
that ends as at a prompt, and the rest. -/
def inPieces : Call Spool :=
  let reply := "di\r\n1\n. 2\n. ".toList
  .ofHost ⟨⟨⟨[], [3, 5, 4], ⟨[reply], reply, by decide⟩⟩, 100, []⟩, .empty⟩

theorem readReply_of_arrived_inPieces : ∃ h' elapsed,
    Arrived ["di\r".toList, "\n1\n. ".toList, "2\n. ".toList] 3 inPieces.host h' ∧
    readReply inPieces = .ok (.prompt "di\n1\n. 2\n".toList)
      { inPieces with host := h', buffer := [], elapsed } := by
  let read (s : Spool) (n : Nat) : Spool :=
    { s with pace := s.pace.tail, ledger := s.ledger.delivering n }
  let first : Host Spool := ⟨read inPieces.host.guest 3, .empty⟩
  let second : Host Spool := ⟨read first.guest 5, .empty⟩
  let third : Host Spool := ⟨read second.guest 4, .empty⟩
  have arrived : Arrived ["di\r".toList, "\n1\n. ".toList, "2\n. ".toList] 3 inPieces.host third :=
    @Arrived.piece Spool _ _ _ 0 2 _ first _ (fun wait => rfl)
      (@Arrived.piece Spool _ _ _ 0 1 _ second _ (fun wait => rfl)
        (@Arrived.piece Spool _ _ _ 0 0 _ third _ (fun wait => rfl)
          (@Arrived.silence Spool _ 0 _ third rfl)))
  have ends : ["di\r".toList, "\n1\n. ".toList, "2\n. ".toList].flatten
      = "di\r\n1\n. 2".toList ++ readyPrompt := by decide
  obtain ⟨elapsed, reply⟩ := readReply_of_arrived (c := inPieces) rfl arrived (by decide) ends
    (by decide) (by decide)
  exact ⟨third, elapsed, arrived, reply⟩

end Console

end DoRunner
