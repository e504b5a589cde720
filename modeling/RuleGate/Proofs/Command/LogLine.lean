import RuleGate.Command.Report
import RuleGate.Proofs.Sample
import RuleGate.Proofs.Template.Unbroken

/-!
# Lines in log files

A log command appends one text to its file, and the text ends in a line feed. All others are those of the
values that may hold some. Decoded values go into the file as they are, so a request can make one command
write several lines. A write that the machine cuts short leaves the front of the text and fails the command.
-/

namespace RuleGate

namespace LogSink

theorem endsWith_newline (line : String) :
    line.endsWith "\n" = true ↔ line.toList.getLast? = some '\n' := by
  rw [← String.endsWith_toSlice, String.Slice.endsWith_string_iff, String.copy_toSlice,
    List.getLast?_eq_some_iff]
  exact exists_congr fun _ ↦ eq_comm

theorem withNewline_eq (line : String) :
    withNewline line = line ++ if line.toList.getLast? = some '\n' then "" else "\n" := by
  unfold withNewline
  by_cases hends : line.endsWith "\n" = true
  · rw [if_pos hends, if_pos ((endsWith_newline line).mp hends), String.append_empty]
  · rw [if_neg hends, if_neg (mt (endsWith_newline line).mpr hends)]

theorem getLast?_withNewline (line : String) : (withNewline line).toList.getLast? = some '\n' := by
  rw [withNewline_eq]
  split
  · next hends => rwa [String.append_empty]
  · rw [String.toList_append, List.getLast?_append]
    rfl

theorem count_withNewline (line : String) :
    (withNewline line).toList.count '\n' =
      line.toList.count '\n' + if line.toList.getLast? = some '\n' then 0 else 1 := by
  rw [withNewline_eq, String.toList_append, List.count_append]
  split <;> rfl

end LogSink

namespace LogCommand

/-- The world after a text was appended to a file. -/
def appended (w : World) (place : Place) (text : String) : World :=
  { w with disk := { w.disk with files := w.disk.files.append place (Bytes.ofString text) } }.note
    (.fileText place text)

/-- All that a command does is to write one text to a file. It fails if the machine cuts the write short, and
the front of the text is in the file then. -/
structure Writes (c : LogCommand) (s : Scene) (place : Place) (text : String) : Prop where
  whole : s.world.faults.write s.world.journal (.file place) (Bytes.ofString text) = none →
    c.run s = (.ok (), { s with world := appended s.world place text })
  cut : ∀ fault, s.world.faults.write s.world.journal (.file place) (Bytes.ofString text) = some fault →
    c.run s = (.error (.io fault.message),
      { s with world := s.world.accept ((Bytes.ofString text).take fault.count) (.file place) })

theorem accept_ofString (w : World) (place : Place) (text : String) :
    w.accept (Bytes.ofString text) (.file place) = appended w place text := by
  rw [World.accept, Bytes.toStringLossy_ofString]
  rfl

theorem run_writes {c : LogCommand} {place : Place} (h : c.sink.target = .file place) (s : Scene) :
    c.Writes s place (LogSink.withNewline (c.template.expand s.exchange)) := by
  constructor
  · intro hwrite
    rw [run, World.writeLine, h]
    simp only [World.write, hwrite, accept_ofString]
  · intro fault hwrite
    rw [run, World.writeLine, h]
    simp only [World.write, hwrite]

/-- Where the literal text of a template holds no line feed, a log command to a file writes one text to the file
on every well-formed exchange, and does nothing else: the expansion, which gets a line feed unless it ends in one.
The text ends in a line feed. The others are those of the decoded path, of decoded parameters and of the name of
the route; where these have none, the text is one line. -/
theorem run_appends_line {c : LogCommand} {place : Place} (hsink : c.sink.target = .file place)
    (hliteral : ∀ text, .literal text ∈ c.template.segments → IsUnbroken text) {s : Scene}
    (hformed : s.exchange.WellFormed) :
    ∃ text : String, c.Writes s place text ∧
      text = c.template.expand s.exchange ++
        (if (c.template.expand s.exchange).toList.getLast? = some '\n' then "" else "\n") ∧
      text.toList.getLast? = some '\n' ∧
      text.toList.count '\n' = c.template.breaks s.exchange +
        (if (c.template.expand s.exchange).toList.getLast? = some '\n' then 0 else 1) ∧
      (c.template.breaks s.exchange = 0 → text.toList.count '\n' = 1) := by
  have hexpand := Template.count_expand hformed hliteral
  have hcount := LogSink.count_withNewline (c.template.expand s.exchange)
  rw [hexpand] at hcount
  refine ⟨LogSink.withNewline (c.template.expand s.exchange), run_writes hsink s, LogSink.withNewline_eq _,
    LogSink.getLast?_withNewline _, hcount, fun hnone ↦ ?_⟩
  rw [hnone, List.count_eq_zero] at hexpand
  have hends : (c.template.expand s.exchange).toList.getLast? ≠ some '\n' :=
    fun hlast ↦ hexpand (List.mem_of_getLast? hlast)
  rw [hcount, hnone, if_neg hends]

/-- A log of the methods and the paths of requests. -/
def accessLog : LogCommand :=
  ⟨.info, ⟨"access.log", .file ["access.log".toList]⟩,
    ⟨[.static .requestMethod, .literal " ", .static .requestPath]⟩⟩

theorem accessLog_literal : ∀ text, .literal text ∈ accessLog.template.segments → IsUnbroken text := by
  intro text htext
  simp only [accessLog, List.mem_cons, Segment.literal.injEq, reduceCtorEq, false_or, or_false,
    List.not_mem_nil] at htext
  rw [htext]
  decide

theorem plain_wellFormed {path : String} (h : path.toList.all PathQuery.isPathChar = true) :
    (Exchange.start (.plain path)).WellFormed := by
  have hmethod : isMethod "GET" = true := by decide
  have hpath := List.all_eq_true.mp h
  exact ⟨⟨hmethod, ⟨nofun, nofun, hpath, nofun⟩, List.forall_mem_nil _, nofun⟩, List.forall_mem_nil _⟩

/-- A path without escapes makes one line. -/
theorem accessLog_line :
    accessLog.run ⟨.start (.plain "/a"), .quiet⟩ =
      (.ok (), ⟨.start (.plain "/a"), appended .quiet ["access.log".toList] "GET /a\n"⟩) ∧
    "GET /a\n".toList.count '\n' = 1 := by
  obtain ⟨text, hwrites, htext, -, -, hone⟩ := run_appends_line (c := accessLog) rfl accessLog_literal
    (s := ⟨.start (.plain "/a"), .quiet⟩) (plain_wellFormed (by decide))
  have hline : text = "GET /a\n" := by
    rw [htext]
    decide
  rw [hline] at hwrites hone
  exact ⟨hwrites.whole rfl, hone (by decide)⟩

/-- A line feed that is escaped in the path makes two lines of one command. -/
theorem accessLog_breaks :
    (Exchange.start (.plain "/a%0Ab")).WellFormed ∧
    (∀ text, .literal text ∈ accessLog.template.segments → IsUnbroken text) ∧
    accessLog.run ⟨.start (.plain "/a%0Ab"), .quiet⟩ =
      (.ok (), ⟨.start (.plain "/a%0Ab"), appended .quiet ["access.log".toList] "GET /a\nb\n"⟩) ∧
    "GET /a\nb\n".toList.count '\n' = 2 := by
  have hline : LogSink.withNewline (accessLog.template.expand (.start (.plain "/a%0Ab"))) =
      "GET /a\nb\n" := by
    rw [LogSink.withNewline_eq]
    decide
  have hwrites := run_writes (c := accessLog) rfl ⟨.start (.plain "/a%0Ab"), .quiet⟩
  rw [hline] at hwrites
  exact ⟨plain_wellFormed (by decide), accessLog_literal, hwrites.whole rfl, rfl⟩

end LogCommand

end RuleGate
