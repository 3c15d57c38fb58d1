import DoRunner.Echo.Terminal
import DoRunner.Proofs.Text.Lines

/-!
# Making output plain, line by line

Two things are taken out of raw output before it is read: carriage returns in front of line feeds,
and terminal sequences. Output without them is plain already.

Neither reaches across a line feed. A carriage return is dropped for the line feed right behind it,
and no piece of a terminal sequence admits a line feed, so a sequence ends with its line at the
latest. Output may therefore be made plain in two halves, cut at any line feed. That is the fact
that lets two captures with a common beginning be compared by what follows it.
-/

namespace DoRunner.Terminal

/-! ## Carriage returns -/

/-- A character that is no carriage return before a line feed stays. -/
theorem dropCarriageReturns_cons {c : Char} {t : Text} (h : c = '\r' → t.head? ≠ some '\n') :
    dropCarriageReturns (c :: t) = c :: dropCarriageReturns t := by
  rw [dropCarriageReturns.eq_2]
  intro rest hc ht
  exact h hc (by rw [ht]; rfl)

theorem dropCarriageReturns_cons_of_ne {c : Char} (h : c ≠ '\r') (t : Text) :
    dropCarriageReturns (c :: t) = c :: dropCarriageReturns t :=
  dropCarriageReturns_cons (fun e => absurd e h)

theorem dropCarriageReturns_of_notMem {t : Text} (h : '\r' ∉ t) : dropCarriageReturns t = t := by
  induction t with
  | nil => rfl
  | cons c t ih =>
    have hc : c ≠ '\r' := fun e => h (e ▸ List.mem_cons_self)
    rw [dropCarriageReturns_cons_of_ne hc, ih (fun m => h (List.mem_cons_of_mem _ m))]

/-- A line that ends in no carriage return keeps all its characters. -/
theorem dropCarriageReturns_line_append {line : Text} (hlf : '\n' ∉ line)
    (hcr : line.getLast? ≠ some '\r') (t : Text) :
    dropCarriageReturns (line ++ '\n' :: t) = line ++ '\n' :: dropCarriageReturns t := by
  induction line with
  | nil => exact dropCarriageReturns_cons_of_ne (by decide) t
  | cons c line ih =>
    have hlf' : '\n' ∉ line := fun m => hlf (List.mem_cons_of_mem _ m)
    cases line with
    | nil =>
      have hc : c ≠ '\r' := fun e => hcr (by rw [e]; rfl)
      rw [List.singleton_append, dropCarriageReturns_cons_of_ne hc,
        dropCarriageReturns_cons_of_ne (by decide), List.singleton_append]
    | cons d line =>
      have hd : d ≠ '\n' := fun e => hlf' (e ▸ List.mem_cons_self)
      rw [List.cons_append, dropCarriageReturns_cons,
        ih hlf' (by rwa [List.getLast?_cons_cons] at hcr), ← List.cons_append]
      intro _ he
      exact hd (Option.some.inj he)

/-- **Dropping carriage returns does not reach across a line feed.** -/
theorem dropCarriageReturns_append_lf (s t : Text) :
    dropCarriageReturns (s ++ '\n' :: t)
      = dropCarriageReturns (s ++ ['\n']) ++ dropCarriageReturns t := by
  fun_induction dropCarriageReturns s with
  | case1 s ih =>
    simp only [List.cons_append, dropCarriageReturns]
    rw [ih]
  | case2 c s hne ih =>
    cases s with
    | nil =>
      by_cases hc : c = '\r'
      · subst hc
        rfl
      · rw [List.singleton_append, List.singleton_append, dropCarriageReturns_cons_of_ne hc,
          dropCarriageReturns_cons_of_ne hc, dropCarriageReturns_cons_of_ne (by decide),
          dropCarriageReturns_cons_of_ne (by decide)]
        rfl
    | cons d s =>
      have hd : c = '\r' → d ≠ '\n' := fun hc he => hne s hc (by rw [he])
      have keep : ∀ u : Text, dropCarriageReturns (c :: (d :: s ++ u))
          = c :: dropCarriageReturns (d :: s ++ u) := fun u =>
        dropCarriageReturns_cons (fun hc he => hd hc (Option.some.inj he))
      calc dropCarriageReturns (c :: d :: s ++ '\n' :: t)
          = c :: dropCarriageReturns (d :: s ++ '\n' :: t) := keep _
        _ = c :: dropCarriageReturns (d :: s ++ ['\n']) ++ dropCarriageReturns t := by
            rw [ih]; rfl
        _ = dropCarriageReturns (c :: d :: s ++ ['\n']) ++ dropCarriageReturns t := by
            rw [← keep]; rfl
  | case3 => exact dropCarriageReturns_cons_of_ne (by decide) t

/-- A line without the carriage return that may end it. -/
def chomp (line : Text) : Text := if line.getLast? = some '\r' then line.dropLast else line

theorem chomp_of_getLast {line : Text} (h : line.getLast? ≠ some '\r') : chomp line = line :=
  if_neg h

theorem chomp_append_return (line : Text) : chomp (line ++ ['\r']) = line := by
  rw [chomp, if_pos (by rw [List.getLast?_append]; rfl), List.dropLast_concat]

/-- Only one carriage return is taken off where there are not two of them. -/
theorem chomp_chomp {line : Text} (h : Text.endsWith "\r\r".toList line = false) :
    chomp (chomp line) = chomp line := by
  by_cases hcr : line.getLast? = some '\r'
  · obtain ⟨front, rfl⟩ := List.getLast?_eq_some_iff.mp hcr
    rw [chomp_append_return]
    apply chomp_of_getLast
    intro hfront
    obtain ⟨front', rfl⟩ := List.getLast?_eq_some_iff.mp hfront
    have twice := Text.endsWith_append "\r\r".toList front'
    rw [List.append_assoc] at h
    exact absurd (h.symm.trans twice) (by decide)
  · rw [chomp_of_getLast hcr, chomp_of_getLast hcr]

theorem chomp_isPrefix (line : Text) : chomp line <+: line := by
  unfold chomp
  split
  · exact List.dropLast_prefix line
  · exact List.prefix_rfl

/-- A line loses the carriage return that ends it, and no other. -/
theorem dropCarriageReturns_chomp {line : Text} (h : '\n' ∉ line) (t : Text) :
    dropCarriageReturns (line ++ '\n' :: t) = chomp line ++ '\n' :: dropCarriageReturns t := by
  by_cases hcr : line.getLast? = some '\r'
  · obtain ⟨front, rfl⟩ := List.getLast?_eq_some_iff.mp hcr
    rw [chomp_append_return]
    induction front with
    | nil => rw [List.nil_append, List.singleton_append, dropCarriageReturns, List.nil_append]
    | cons c front ih =>
      have hfront : '\n' ∉ front ++ ['\r'] := fun m => h (List.mem_cons_of_mem _ m)
      rw [List.cons_append, List.cons_append, dropCarriageReturns_cons,
        ih hfront (by rw [List.getLast?_append]; rfl), List.cons_append]
      intro _ he
      cases front with
      | nil => exact absurd (Option.some.inj he) (by decide)
      | cons d front => exact hfront (by rw [Option.some.inj he]; exact List.mem_cons_self)
  · rw [chomp_of_getLast hcr, dropCarriageReturns_line_append h hcr]

/-! ## Terminal sequences -/

/-- Whether a form stays within its line. -/
def Form.WithinLine (form : Form) : Prop := ∀ piece ∈ form, piece.admits '\n' = false

/-- No form of a terminal sequence has a place for a line feed. -/
theorem withinLine_of_mem_forms : ∀ form ∈ forms, form.WithinLine := by
  unfold Form.WithinLine forms
  decide

theorem Piece.taken?_append_lf {piece : Piece} (h : piece.admits '\n' = false) (s t : Text) :
    piece.taken? (s ++ '\n' :: t) = piece.taken? s := by
  have run : (s ++ '\n' :: t).takeWhile piece.admits = s.takeWhile piece.admits := by
    induction s with
    | nil => rw [List.nil_append, List.takeWhile_cons_of_neg (by simp [h])]; rfl
    | cons c s ih =>
      rw [List.cons_append, List.takeWhile_cons, List.takeWhile_cons, ih]
  rw [taken?, taken?, run]

theorem Piece.taken?_le {piece : Piece} {t : Text} {n : Nat} (h : piece.taken? t = some n) :
    n ≤ t.length := by
  have run : (t.takeWhile piece.admits).length ≤ t.length := (List.takeWhile_sublist _).length_le
  unfold taken? at h
  dsimp only at h
  split at h
  · split at h
    · injection h with h
      omega
    · exact absurd h (by simp)
  · split at h
    · injection h with h
      omega
    · exact absurd h (by simp)

theorem Form.taken?_append_lf {form : Form} (h : form.WithinLine) (s t : Text) :
    form.taken? (s ++ '\n' :: t) = form.taken? s := by
  induction form generalizing s with
  | nil => rfl
  | cons piece form ih =>
    rw [Form.taken?, Form.taken?, Piece.taken?_append_lf (h piece List.mem_cons_self)]
    cases hn : piece.taken? s with
    | none => rfl
    | some n =>
      dsimp only
      rw [List.drop_append_of_le_length (Piece.taken?_le hn),
        ih (fun p m => h p (List.mem_cons_of_mem _ m))]

theorem Form.taken?_le {form : Form} {t : Text} {n : Nat} (h : form.taken? t = some n) :
    n ≤ t.length := by
  induction form generalizing t n with
  | nil =>
    injection h with h
    omega
  | cons piece form ih =>
    rw [Form.taken?] at h
    split at h
    · exact absurd h (by simp)
    · rename_i k hk
      obtain ⟨m, hm, rfl⟩ := Option.map_eq_some_iff.mp h
      have first := Piece.taken?_le hk
      have rest := ih hm
      rw [List.length_drop] at rest
      omega

theorem sequenceLength?_append_lf (s t : Text) :
    sequenceLength? (s ++ '\n' :: t) = sequenceLength? s := by
  unfold sequenceLength?
  have same : ∀ form ∈ forms, form.taken? (s ++ '\n' :: t) = form.taken? s :=
    fun form m => Form.taken?_append_lf (withinLine_of_mem_forms form m) s t
  revert same
  induction forms with
  | nil => exact fun _ => rfl
  | cons form others ih =>
    intro same
    rw [List.findSome?_cons, List.findSome?_cons, same form List.mem_cons_self,
      ih (fun f m => same f (List.mem_cons_of_mem _ m))]

theorem sequenceLength?_le {t : Text} {n : Nat} (h : sequenceLength? t = some n) :
    n ≤ t.length := by
  obtain ⟨form, -, taken⟩ := List.exists_of_findSome?_eq_some h
  exact Form.taken?_le taken

theorem strip_of_notMem {t : Text} (h : '\x1b' ∉ t) : strip t = t := by
  induction t with
  | nil => rw [strip]
  | cons c t ih =>
    have hc : c ≠ '\x1b' := fun e => h (e ▸ List.mem_cons_self)
    rw [strip, if_neg hc, ih (fun m => h (List.mem_cons_of_mem _ m))]

/-- **Taking terminal sequences out does not reach across a line feed.** -/
theorem strip_append_lf (s t : Text) : strip (s ++ '\n' :: t) = strip s ++ '\n' :: strip t := by
  fun_induction strip s with
  | case1 => rw [List.nil_append, strip, if_neg (by decide), List.nil_append]
  | case2 s n hn ih =>
    rw [List.cons_append, strip, if_pos rfl, sequenceLength?_append_lf, hn]
    dsimp only
    rw [List.drop_append_of_le_length (sequenceLength?_le hn), ih]
  | case3 s hn ih =>
    rw [List.cons_append, strip, if_pos rfl, sequenceLength?_append_lf, hn]
    dsimp only
    rw [ih, List.cons_append]
  | case4 c s hc ih =>
    rw [List.cons_append, strip, if_neg hc, ih, List.cons_append]

/-! ## Both -/

/-- Output that holds nothing to take out is plain already. -/
theorem plain_eq_self {t : Text} (hcr : '\r' ∉ t) (hesc : '\x1b' ∉ t) : plain t = t := by
  rw [plain, dropCarriageReturns_of_notMem hcr, strip_of_notMem hesc]

theorem plain_nil : plain [] = [] := plain_eq_self List.not_mem_nil List.not_mem_nil

theorem dropCarriageReturns_ends_lf (s : Text) :
    ∃ t, dropCarriageReturns (s ++ ['\n']) = t ++ ['\n'] := by
  fun_induction dropCarriageReturns s with
  | case1 s ih =>
    obtain ⟨t, ht⟩ := ih
    refine ⟨'\n' :: t, ?_⟩
    rw [List.cons_append, List.cons_append, dropCarriageReturns, ht, List.cons_append]
  | case2 c s hne ih =>
    obtain ⟨t, ht⟩ := ih
    by_cases hc : c = '\r' ∧ s = []
    · refine ⟨[], ?_⟩
      rw [hc.1, hc.2]
      rfl
    · refine ⟨c :: t, ?_⟩
      rw [List.cons_append, dropCarriageReturns_cons, ht, List.cons_append]
      intro he hs
      cases s with
      | nil => exact hc ⟨he, rfl⟩
      | cons d s => exact hne s he (by rw [Option.some.inj hs])
  | case3 => exact ⟨[], rfl⟩

/-- **Output may be made plain in two halves, cut at any line feed.** -/
theorem plain_append_lf (s t : Text) : plain (s ++ '\n' :: t) = plain (s ++ ['\n']) ++ plain t := by
  obtain ⟨u, hu⟩ := dropCarriageReturns_ends_lf s
  have whole : dropCarriageReturns (s ++ '\n' :: t) = u ++ '\n' :: dropCarriageReturns t := by
    rw [dropCarriageReturns_append_lf, hu, List.append_assoc]
    rfl
  rw [plain, plain, plain, whole, hu, strip_append_lf, strip_append_lf, strip, List.append_assoc]
  rfl

/-- A line is as plain as what is left of it without the carriage return that ends it. -/
theorem plain_line {line : Text} (h : '\n' ∉ line) :
    plain (line ++ ['\n']) = strip (chomp line) ++ ['\n'] := by
  rw [plain, dropCarriageReturns_chomp h, strip_append_lf, dropCarriageReturns, strip]

/-! ## Lines that come through -/

/-- A line that is the same in raw output and in plain text. -/
structure Legible (line : Text) : Prop where
  /-- It is a single line. -/
  oneLine : '\n' ∉ line
  /-- No carriage return ends it. -/
  unreturned : line.getLast? ≠ some '\r'
  /-- It holds no terminal sequence. -/
  stripped : strip line = line

theorem legible_of_notMem {line : Text} (hlf : '\n' ∉ line) (hcr : '\r' ∉ line)
    (hesc : '\x1b' ∉ line) : Legible line :=
  ⟨hlf, fun h => hcr (List.mem_of_getLast? h), strip_of_notMem hesc⟩

/-- It does not end in two carriage returns, either. -/
theorem Legible.returnedOnce {line : Text} (h : Legible line) :
    Text.endsWith "\r\r".toList line = false := by
  rw [Bool.eq_false_iff]
  intro twice
  obtain ⟨front, rfl⟩ := Text.endsWith_iff.mp twice
  apply h.unreturned
  rw [List.getLast?_append]
  rfl

theorem dropCarriageReturns_of_oneLine {t : Text} (h : '\n' ∉ t) : dropCarriageReturns t = t := by
  induction t with
  | nil => rfl
  | cons c t ih =>
    have ht : '\n' ∉ t := fun m => h (List.mem_cons_of_mem _ m)
    rw [dropCarriageReturns_cons, ih ht]
    intro _ he
    exact ht (List.mem_of_mem_head? he)

theorem Legible.plain_append {line : Text} (h : Legible line) (t : Text) :
    plain (line ++ '\n' :: t) = line ++ '\n' :: plain t := by
  rw [plain, dropCarriageReturns_line_append h.oneLine h.unreturned, strip_append_lf, h.stripped]
  rfl

theorem plain_ended_append {ls : List Text} (h : ∀ line ∈ ls, Legible line) (t : Text) :
    plain (Text.ended ls ++ t) = Text.ended ls ++ plain t := by
  induction ls with
  | nil => rfl
  | cons line ls ih =>
    rw [Text.ended_cons, List.append_assoc, List.cons_append,
      (h line List.mem_cons_self).plain_append, ih (fun l m => h l (List.mem_cons_of_mem _ m)),
      List.append_assoc, List.cons_append]

/-- Legible lines come through. -/
theorem plain_unlines {ls : List Text} (h : ∀ line ∈ ls, Legible line) :
    plain (Text.unlines ls) = Text.unlines ls := by
  induction ls with
  | nil => rw [Text.unlines, plain, dropCarriageReturns, strip]
  | cons line more ih =>
    have hline := h line List.mem_cons_self
    cases more with
    | nil =>
      rw [Text.unlines, plain, dropCarriageReturns_of_oneLine hline.oneLine, hline.stripped]
    | cons next more =>
      rw [Text.unlines, hline.plain_append, ih (fun l m => h l (List.mem_cons_of_mem _ m))]

end DoRunner.Terminal
