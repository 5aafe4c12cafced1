import CisWebui.Multipart.Leniency

/-!
# Bytes that are struck out

A byte that the header of a part refuses leaves the parser where it is.  The
error of it is gone when a filename ends with the bytes let go together with it:
what is read is the text without the refused bytes.
-/

namespace CisWebui
namespace Multipart

open Cpp
open Foundation

/-!
## Behind a text
-/

namespace MessageParser

theorem parser_of_failed {p : MessageParser} {c : UInt8}
    (h : (p.handleMessageChar c).failed = true) :
    (p.handleMessageChar c).parser = p ∨ p.state = MessageState.start ∧
      (p.handleMessageChar c).parser = p.goReset MessageState.contentDisposition := by
  have hexpect : forall (q : MessageParser) next event,
      (q.expect c next event).failed = true -> (q.expect c next event).parser = q := by
    intro q next event hfailed
    unfold expect at hfailed ⊢
    split
    · rename_i hhead
      rw [if_pos hhead] at hfailed
      split at hfailed
      · cases hfailed
      · cases hfailed
    · rfl
  rcases p with ⟨state, transition⟩
  cases state with
  | start => exact Or.inr ⟨rfl, hexpect _ _ _ h⟩
  | contentDisposition => exact Or.inl (hexpect _ _ _ h)
  | filename => exact Or.inl (hexpect _ _ _ h)
  | contentType => exact Or.inl (hexpect _ _ _ h)
  | preBody => exact Or.inl (hexpect _ _ _ h)
  | maybeFilename =>
      left
      unfold handleMessageChar at h ⊢
      dsimp only at h ⊢
      split
      · rename_i hc
        rw [if_pos hc] at h
        cases h
      · rename_i hc
        rw [if_neg hc] at h
        split
        · rename_i hreturn
          rw [if_pos hreturn] at h
          cases h
        · rfl
  | name =>
      rw [handleMessageChar] at h
      dsimp only at h
      split at h <;> cases h
  | filenameBody =>
      rw [handleMessageChar] at h
      dsimp only at h
      split at h <;> cases h
  | contentTypeBody =>
      rw [handleMessageChar] at h
      dsimp only at h
      split at h <;> cases h
  | body => cases h

end MessageParser

/-- The parser has read the text from the start of a part, and perhaps refused
bytes behind it. -/
def Behind (text : Str) (p : MessageParser) : Prop :=
  Reads text p ∨ text = [] ∧ p = ⟨MessageState.contentDisposition,
    MessageParser.literal MessageState.contentDisposition⟩

section

variable {text held : Str} {p q : MessageParser} {b : UInt8}

theorem behind_nil : Behind [] {} :=
  Or.inl reads_nil

theorem read_of_ok (h : (p.handleMessageChar b).failed = false) :
    p.read b = some ((p.handleMessageChar b).parser, [⟨b, (p.handleMessageChar b).event⟩]) := by
  rw [MessageParser.read, h]
  rfl

theorem ok_of_read {marks : List Mark} (h : p.read b = some (q, marks)) :
    (p.handleMessageChar b).failed = false := by
  rw [MessageParser.read] at h
  split at h
  · cases h
  · rename_i hok
    exact Bool.not_eq_true _ ▸ hok

theorem reads_byte (hp : Behind text p) (hok : (p.handleMessageChar b).failed = false) :
    Reads (text ++ [b]) (p.handleMessageChar b).parser := by
  have hrun := Transducer.run_singleton (read_of_ok hok)
  rcases hp with hp | ⟨rfl, rfl⟩
  · exact reads_append hp hrun
  · exact ⟨_, (MessageParser.run_start rfl).trans hrun⟩

/-- A byte is not refused exactly when some part goes on with it. -/
theorem begins_byte (hp : Behind text p) :
    (p.handleMessageChar b).failed = false <-> Begins (text ++ [b]) := by
  constructor
  · intro hok
    exact begins_iff.mpr ⟨_, reads_byte hp hok⟩
  · intro hbegins
    rcases begins_iff.mp hbegins with ⟨q, hq⟩
    have hrun : exists marks, Transducer.run MessageParser.read p [b] = some (q, marks) := by
      rcases hp with hp | ⟨rfl, rfl⟩
      · exact run_of_reads hp hq
      · rcases hq with ⟨marks, hrun⟩
        exact ⟨marks, (MessageParser.run_start rfl).symm.trans hrun⟩
    rcases hrun with ⟨marks, hrun⟩
    rcases Transducer.exists_of_run_cons hrun with ⟨r, u, v, hread, -, -⟩
    exact ok_of_read hread

theorem nil_of_start (hp : Reads text p) (hstart : p.state = MessageState.start) :
    text = [] ∧ p = {} := by
  cases text with
  | nil => exact ⟨rfl, reads_unique hp reads_nil⟩
  | cons c text =>
      rcases hp with ⟨marks, hrun⟩
      rw [MessageParser.run_start rfl] at hrun
      have hle := MessageParser.rank_le_run _ hrun
      rw [hstart] at hle
      cases hle

theorem behind_refused (hp : Behind text p) (h : (p.handleMessageChar b).failed = true) :
    Behind text (p.handleMessageChar b).parser := by
  rcases MessageParser.parser_of_failed h with hsame | ⟨hstart, hreset⟩
  · rwa [hsame]
  · rcases hp with hp | ⟨-, rfl⟩
    · rcases nil_of_start hp hstart with ⟨rfl, rfl⟩
      exact Or.inr ⟨rfl, hreset⟩
    · cases hstart

theorem isPart_of_behind (hp : Behind text p) :
    p.state = MessageState.body <-> IsPart text := by
  rcases hp with hp | ⟨rfl, rfl⟩
  · exact isPart_iff hp
  · apply iff_of_false (by simp)
    rintro ⟨part, -, hnil⟩
    cases hnil

/-- The end of a part. -/
theorem behind_handleMessageEnd (hp : Behind text p) :
    p.state = MessageState.body ∧ p.handleMessageEnd.parser = {} ∨
      ¬ p.state = MessageState.body ∧ p.handleMessageEnd.parser = p := by
  by_cases hbody : p.state = MessageState.body
  · left
    rcases hp with hp | ⟨rfl, rfl⟩
    · rcases exists_part_of_reads hp hbody with ⟨-, -, -, rfl⟩
      exact ⟨rfl, rfl⟩
    · cases hbody
  · right
    rw [MessageParser.handleMessageEnd, if_neg hbody]
    exact ⟨hbody, rfl⟩

theorem stopsAt_iff (hp : Behind text p) : StopsAt text held <->
    p.state.nameless = true ∧ ¬ (p.state = MessageState.name ∧ held = []) := by
  rcases hp with hp | ⟨rfl, rfl⟩
  · constructor
    · intro h
      rcases reads_of_stopsAt h with ⟨q, hq, hends⟩
      rwa [reads_unique hp hq]
    · intro h
      exact stopsAt_of_reads hp h.left h.right
  · exact iff_of_true (Or.inl ⟨Part.nameHeader, by decide, rfl⟩) ⟨rfl, by simp⟩

/-!
## The end of a filename
-/

theorem reads_filename {name filename : Str} (hname : ¬ chr '"' ∈ name)
    (hfilename : ¬ chr '"' ∈ filename) :
    Reads (Part.nameHeader ++ name ++ str "\"; filename=\"" ++ filename)
      ⟨MessageState.filenameBody, []⟩ := by
  have hheader : Reads Part.nameHeader ⟨MessageState.name, []⟩ :=
    ⟨_, (MessageParser.run_start rfl).trans
      (MessageParser.run_literal MessageParser.expects_contentDisposition
        (str "Content-Disposition: form-data; name=") (chr '"'))⟩
  have hmiddle : str "\"; filename=\"" =
      [chr '"'] ++ ([chr ';'] ++ (str " filename=" ++ [chr '"'])) := rfl
  have hall := reads_append hheader
    (Transducer.run_append (MessageParser.run_value MessageParser.collects_name hname)
      (Transducer.run_append (Transducer.run_singleton MessageParser.read_semicolon)
        (Transducer.run_append
          (MessageParser.run_literal MessageParser.expects_filename (str " filename=")
            (chr '"'))
          (MessageParser.run_value_part MessageParser.collects_filenameBody hfilename))))
  rw [hmiddle]
  simpa only [List.append_assoc] using hall

theorem exists_of_filename (hp : Reads text p)
    (hstate : p.state = MessageState.filenameBody) :
    exists name filename, ¬ chr '"' ∈ name ∧ ¬ chr '"' ∈ filename ∧
      text = Part.nameHeader ++ name ++ str "\"; filename=\"" ++ filename := by
  rcases hp with ⟨marks, hrun⟩
  cases text with
  | nil =>
      cases hrun
      cases hstate
  | cons c text =>
      rw [MessageParser.run_start rfl] at hrun
      rcases MessageParser.after_literal MessageParser.expects_contentDisposition
        (str "Content-Disposition: form-data; name=") (chr '"') hrun
        (by rw [hstate]; decide) with ⟨afterStart, _, htext, hname⟩
      rcases MessageParser.after_value MessageParser.collects_name hname
        (by rw [hstate]; decide) with ⟨name, afterName, _, hvalue, rfl, hrest⟩
      cases afterName with
      | nil =>
          cases hrest
          cases hstate
      | cons d afterName =>
          rcases Transducer.exists_of_run_cons hrest with ⟨r, u, v, hread, hlast, -⟩
          rcases MessageParser.read_maybeFilename hread with rfl | rfl
          · rw [MessageParser.read_semicolon] at hread
            cases hread
            rcases MessageParser.after_literal MessageParser.expects_filename
              (str " filename=") (chr '"') hlast (by rw [hstate]; decide) with
              ⟨filename, _, rfl, hfilename⟩
            refine ⟨name, filename, hvalue, ?_, ?_⟩
            · exact MessageParser.not_mem_of_run_value MessageParser.collects_filenameBody
                (by decide) hfilename hstate
            · rw [htext]
              simp [Part.nameHeader, str, chr]
          · rw [MessageParser.read_return] at hread
            cases hread
            have hle := MessageParser.rank_le_run _ hlast
            rw [hstate] at hle
            simp [MessageState.rank] at hle

theorem endFilename_cases (h : (p.handleMessageChar b).event = MessageEvent.endFilename) :
    p.state = MessageState.filenameBody ∧ b = chr '"' := by
  have hexpect : forall (q : MessageParser) next event,
      ¬ event = MessageEvent.endFilename ->
      ¬ (q.expect b next event).event = MessageEvent.endFilename := by
    intro q next event hne
    unfold MessageParser.expect
    split
    · split
      · exact hne
      · simp
    · simp
  rcases p with ⟨state, transition⟩
  cases state with
  | start => exact absurd h (hexpect _ _ _ (by simp))
  | contentDisposition => exact absurd h (hexpect _ _ _ (by simp))
  | filename => exact absurd h (hexpect _ _ _ (by simp))
  | contentType => exact absurd h (hexpect _ _ _ (by simp))
  | preBody => exact absurd h (hexpect _ _ _ (by simp))
  | body => cases h
  | name =>
      rw [MessageParser.handleMessageChar] at h
      dsimp only at h
      split at h <;> cases h
  | maybeFilename =>
      rw [MessageParser.handleMessageChar] at h
      dsimp only at h
      split at h
      · cases h
      · split at h <;> cases h
  | contentTypeBody =>
      rw [MessageParser.handleMessageChar] at h
      dsimp only at h
      split at h <;> cases h
  | filenameBody =>
      rw [MessageParser.handleMessageChar] at h
      dsimp only at h
      split at h
      · rename_i hb
        exact ⟨rfl, hb⟩
      · cases h

/-- The event at the end of a filename. -/
theorem endFilename_iff (hp : Behind text p) :
    (p.handleMessageChar b).event = MessageEvent.endFilename <-> NamesFile (text ++ [b]) := by
  constructor
  · intro hevent
    rcases endFilename_cases hevent with ⟨hstate, rfl⟩
    rcases hp with hp | ⟨-, rfl⟩
    · rcases exists_of_filename hp hstate with ⟨name, filename, hname, hfilename, rfl⟩
      exact ⟨name, filename, hname, hfilename, rfl⟩
    · cases hstate
  · rintro ⟨name, filename, hname, hfilename, htext⟩
    rcases List.append_singleton_inj.mp htext with ⟨rfl, rfl⟩
    rcases hp with hp | ⟨hnil, -⟩
    · rw [reads_unique hp (reads_filename hname hfilename)]
      rfl
    · simp [Part.nameHeader, str] at hnil

end

/-!
## Bytes let go together
-/

/-- Behind `text` a filename ends within `left`. -/
def EndsFile (text left : Str) : Prop :=
  exists front back, left = front ++ back ∧ ¬ front = [] ∧ NamesFile (text ++ front)

/-- What is left of bytes that are let go together behind `text`, when those are
struck out that no part goes on with; a filename ends behind each of these.  The
flag tells whether there are any. -/
inductive Mends : Str -> Str -> Str -> Bool -> Prop where
  | nil (text : Str) : Mends text [] [] false
  | kept {text w left : Str} {b : UInt8} {struck : Bool} : Begins (text ++ [b]) ->
      Mends (text ++ [b]) w left struck -> Mends text (b :: w) (b :: left) struck
  | struck {text w left : Str} {b : UInt8} {struck : Bool} : ¬ Begins (text ++ [b]) ->
      Mends text w left struck -> EndsFile text left -> Mends text (b :: w) left true

theorem endsFile_cons {text left : Str} {b : UInt8} :
    EndsFile text (b :: left) <-> NamesFile (text ++ [b]) ∨ EndsFile (text ++ [b]) left := by
  constructor
  · rintro ⟨front, back, hfront, hne, hnames⟩
    cases front with
    | nil => exact absurd rfl hne
    | cons c front =>
        rcases List.cons.inj hfront with ⟨rfl, rfl⟩
        cases front with
        | nil => exact Or.inl hnames
        | cons d front =>
            refine Or.inr ⟨d :: front, back, rfl, List.cons_ne_nil _ _, ?_⟩
            rwa [List.append_assoc]
  · rintro (hnames | ⟨front, back, rfl, -, hnames⟩)
    · exact ⟨[b], left, rfl, List.cons_ne_nil _ _, hnames⟩
    · refine ⟨b :: front, back, rfl, List.cons_ne_nil _ _, ?_⟩
      rwa [List.append_assoc] at hnames

theorem not_endsFile_nil (text : Str) : ¬ EndsFile text [] := by
  rintro ⟨front, back, hnil, hne, -⟩
  exact hne (List.append_eq_nil_iff.mp hnil.symm).left

theorem take_byte (p : MessageParser) (failed : Bool) (b : UInt8) :
    Headers.take (⟨true, p⟩, failed) (Token.byte b) =
      (⟨true, (p.handleMessageChar b).parser⟩, (p.handleMessageChar b).failed ||
        (failed && decide ((p.handleMessageChar b).event ≠ MessageEvent.endFilename))) := rfl

/-- Bytes that leave no error behind. -/
theorem mends_of_takeAll (w : Str) : forall {text : Str} {p q : MessageParser}
    {failed : Bool}, Behind text p ->
    Headers.takeAll (⟨true, p⟩, failed) (bytes w) = (⟨true, q⟩, false) ->
    exists left struck, Mends text w left struck ∧ Behind (text ++ left) q ∧
      (failed = true -> EndsFile text left) := by
  induction w with
  | nil =>
      intro text p q failed hp h
      cases h
      refine ⟨[], false, Mends.nil text, ?_, by simp⟩
      rwa [List.append_nil]
  | cons b w ih =>
      intro text p q failed hp h
      change Headers.takeAll (Headers.take (⟨true, p⟩, failed) (Token.byte b)) (bytes w) = _
        at h
      rw [take_byte] at h
      cases hok : (p.handleMessageChar b).failed with
      | false =>
          rw [hok, Bool.false_or] at h
          rcases ih (Or.inl (reads_byte hp hok)) h with ⟨left, struck, hmends, hq, hends⟩
          refine ⟨b :: left, struck, Mends.kept ((begins_byte hp).mp hok) hmends, ?_, ?_⟩
          · rwa [List.append_assoc] at hq
          · intro hfailed
            rw [endsFile_cons, ← endFilename_iff hp]
            by_cases hevent : (p.handleMessageChar b).event = MessageEvent.endFilename
            · exact Or.inl hevent
            · exact Or.inr (hends (by simp [hfailed, hevent]))
      | true =>
          rw [hok, Bool.true_or] at h
          have hrefused : ¬ Begins (text ++ [b]) := by
            rw [← begins_byte hp, hok]
            simp
          rcases ih (behind_refused hp hok) h with ⟨left, struck, hmends, hq, hends⟩
          exact ⟨left, true, Mends.struck hrefused hmends (hends rfl), hq, fun _ => hends rfl⟩

theorem takeAll_of_mends {text w left : Str} {struck : Bool} (h : Mends text w left struck) :
    forall {p : MessageParser} {failed : Bool}, Behind text p ->
      (failed = true -> EndsFile text left) ->
      exists q, Headers.takeAll (⟨true, p⟩, failed) (bytes w) = (⟨true, q⟩, false) ∧
        Behind (text ++ left) q ∧
        (struck = true -> Headers.steps ⟨true, p⟩ (bytes w) = none) := by
  induction h with
  | nil text =>
      intro p failed hp hends
      cases failed with
      | true => exact absurd (hends rfl) (not_endsFile_nil text)
      | false =>
          refine ⟨p, rfl, ?_, by simp⟩
          rwa [List.append_nil]
  | @kept text w left b struck hbegins _ ih =>
      intro p failed hp hends
      have hok := (begins_byte hp).mpr hbegins
      have hnext : (failed && decide ((p.handleMessageChar b).event ≠
          MessageEvent.endFilename)) = true -> EndsFile (text ++ [b]) left := by
        intro hstands
        rw [Bool.and_eq_true, decide_eq_true_eq] at hstands
        have hcases := endsFile_cons.mp (hends hstands.left)
        rw [← endFilename_iff hp] at hcases
        exact hcases.resolve_left hstands.right
      rcases ih (Or.inl (reads_byte hp hok)) hnext with ⟨q, htake, hq, hsteps⟩
      refine ⟨q, ?_, ?_, ?_⟩
      · change Headers.takeAll (Headers.take (⟨true, p⟩, failed) (Token.byte b)) (bytes w) = _
        rw [take_byte, hok, Bool.false_or]
        exact htake
      · rwa [List.append_assoc] at hq
      · intro hstruck
        change (Headers.step ⟨true, p⟩ (Token.byte b)).bind (fun h => h.steps (bytes w)) = none
        rw [Headers.step, if_pos rfl]
        dsimp only
        rw [hok, if_neg Bool.false_ne_true, Option.bind_some]
        exact hsteps hstruck
  | @struck text w left b struck hrefused _ hfile ih =>
      intro p failed hp _
      have hfailed : (p.handleMessageChar b).failed = true := by
        rw [← begins_byte hp, Bool.not_eq_false] at hrefused
        exact hrefused
      rcases ih (behind_refused hp hfailed) (fun _ => hfile) with ⟨q, htake, hq, -⟩
      refine ⟨q, ?_, hq, fun _ => ?_⟩
      · change Headers.takeAll (Headers.take (⟨true, p⟩, failed) (Token.byte b)) (bytes w) = _
        rw [take_byte, hfailed, Bool.true_or]
        exact htake
      · change (Headers.step ⟨true, p⟩ (Token.byte b)).bind (fun h => h.steps (bytes w)) =
          none
        rw [Headers.step, if_pos rfl]
        dsimp only
        rw [hfailed, if_pos rfl, Option.bind_none]

/-- Without a byte that is struck out, all is left. -/
theorem eq_of_mends {text w left : Str} {struck : Bool} (h : Mends text w left struck)
    (hstruck : struck = false) : left = w := by
  induction h with
  | nil => rfl
  | kept _ _ ih => rw [ih hstruck]
  | struck => cases hstruck

theorem sublist_of_mends {text w left : Str} {struck : Bool}
    (h : Mends text w left struck) : left.Sublist w := by
  induction h with
  | nil => exact List.Sublist.slnil
  | @kept _ _ _ b _ _ _ ih => exact ih.cons_cons b
  | @struck _ _ _ b _ _ _ _ ih => exact ih.cons b

theorem begins_filename {name filename : Str} (hname : ¬ chr '"' ∈ name)
    (hfilename : ¬ chr '"' ∈ filename) (b : UInt8) :
    Begins (Part.nameHeader ++ name ++ str "\"; filename=\"" ++ filename ++ [b]) := by
  apply (begins_byte (Or.inl (reads_filename hname hfilename))).mp
  rw [MessageParser.collects_filenameBody]
  split
  · rfl
  · rfl

/-- Both quotes of the filename come behind a byte that is struck out. -/
theorem quotes_of_endsFile {text left : Str} {b : UInt8} (h : EndsFile text left)
    (hrefused : ¬ Begins (text ++ [b])) : 2 <= left.count (chr '"') := by
  rcases h with ⟨front, back, rfl, hne, name, filename, hname, hfilename, htext⟩
  rw [List.append_assoc _ filename] at htext
  have hover : forall c, text = Part.nameHeader ++ name ++ str "\"; filename=\"" ++ c ->
      filename ++ [chr '"'] = c ++ front -> False := by
    rintro c rfl hc
    rcases List.eq_nil_or_concat' front with rfl | ⟨front, d, rfl⟩
    · exact hne rfl
    · rw [← List.append_assoc] at hc
      rcases List.append_singleton_inj.mp hc with ⟨hc, -⟩
      have hquote : ¬ chr '"' ∈ c := by
        intro hmem
        rw [hc] at hfilename
        exact hfilename (List.mem_append_left _ hmem)
      exact hrefused (begins_filename hname hquote b)
  rcases List.append_eq_append_iff.mp htext with ⟨c, hc, hfront⟩ | ⟨c, hc, hrest⟩
  · rcases List.eq_nil_or_concat' c with rfl | ⟨c, d, rfl⟩
    · rw [List.append_nil] at hc
      rw [List.nil_append] at hfront
      exact (hover [] (by rw [← hc, List.append_nil]) hfront.symm).elim
    · have hlast : str "\"; filename=\"" = str "\"; filename=" ++ [chr '"'] := rfl
      rw [hlast, ← List.append_assoc, ← List.append_assoc] at hc
      rcases List.append_singleton_inj.mp hc with ⟨-, rfl⟩
      rw [hfront]
      simp only [List.count_append, List.count_singleton_self]
      omega
  · exact (hover c hc hrest).elim

theorem quotes_of_mends {text w left : Str} {struck : Bool} (h : Mends text w left struck)
    (hstruck : struck = true) : 2 <= w.count (chr '"') := by
  induction h with
  | nil => cases hstruck
  | kept _ _ ih => exact (ih hstruck).trans ((List.sublist_cons_self _ _).count_le _)
  | struck hrefused hmends hends =>
      exact (quotes_of_endsFile hends hrefused).trans
        (((sublist_of_mends hmends).cons _).count_le _)

end Multipart
end CisWebui
