import TaskCapture.CommandLine.Run
import TaskCapture.Proofs.Calendar.ReadBack
import TaskCapture.Proofs.Json.Pretty

/-!
A task is read back from its JSON text, whatever its texts, its date and the number of its tags. So
what the program prints of a line as JSON is the task of the line.
-/

namespace TaskCapture

namespace Json

@[simp]
lemma text?_str (s : Text) : (str s).text? = some s := rfl

lemma texts?_ofTexts (ts : List Text) : (ofTexts ts).texts? = some ts := by
  rw [ofTexts, texts?]
  induction ts with
  | nil => rfl
  | cons t ts ih => simp [text?, ih]

lemma writable_str (depth : ℕ) (s : Text) : Writable depth (.str s) := by cases depth <;> trivial

lemma writable_ofTexts (ts : List Text) (depth : ℕ) : Writable (depth + 1) (ofTexts ts) := by
  intro v hv
  obtain ⟨t, -, rfl⟩ := List.mem_map.1 hv
  exact writable_str depth t

section

variable {α : Type} {write : α → Json}

/-- What is written for a value is read back, where nothing is written as null. -/
lemma optional?_ofOption {read : Json → Option α} (hread : ∀ a, read (write a) = some a)
    (hnull : ∀ a, write a ≠ .null) (o : Option α) : (ofOption write o).optional? read = some o := by
  cases o with
  | none => rfl
  | some a =>
    rw [ofOption, optional?.eq_def]
    split
    · next h => exact absurd h (hnull a)
    · rw [hread a, Option.map_some]

lemma writable_ofOption {depth : ℕ} (h : ∀ a, Writable depth (write a)) (o : Option α) :
    Writable depth (ofOption write o) := by
  cases o with
  | none => cases depth <;> trivial
  | some a => exact h a

end

end Json

namespace Task

lemma writable_toJson (t : Task) : Json.Writable Json.maxDepth t.toJson := by
  intro m hm
  simp only [List.mem_cons, List.not_mem_nil, or_false] at hm
  rcases hm with rfl | rfl | rfl | rfl | rfl | rfl | rfl
  · exact Json.writable_str _ _
  · exact Json.writable_ofOption (fun _ => Json.writable_str _ _) _
  · exact Json.writable_ofOption (fun _ => Json.writable_str _ _) _
  · exact Json.writable_ofOption (fun _ => Json.writable_str _ _) _
  · exact Json.writable_ofTexts _ _
  · exact Json.writable_ofTexts _ _
  · exact Json.writable_str _ _

/-- The seven fields, each as it is written. -/
lemma ofFields?_fields (t : Task) :
    ofFields? (.str t.title) (.ofOption (fun d => .str d.text) t.dueDate)
      (.ofOption .str t.dueTime) (.ofOption (fun p => .str p.code.toList) t.priority)
      (.ofTexts t.categories) (.ofTexts t.contexts) (.str t.rawInput) = some t := by
  have hdate : (Json.ofOption (fun d : Date => .str d.text) t.dueDate).optional?
      (fun v => v.text?.bind Date.readLoose?) = some t.dueDate :=
    Json.optional?_ofOption (fun d => Date.readLoose?_text d) (by simp) t.dueDate
  have htime : (Json.ofOption .str t.dueTime).optional? Json.text? = some t.dueTime :=
    Json.optional?_ofOption Json.text?_str (by simp) t.dueTime
  have hpriority : (Json.ofOption (fun p : Priority => .str p.code.toList) t.priority).optional?
      Priority.ofJson? = some t.priority :=
    Json.optional?_ofOption (fun p => Priority.ofCode?_code p) (by simp) t.priority
  simp [ofFields?, Json.text?_str, hdate, htime, hpriority, Json.texts?_ofTexts]

lemma ofJson?_toJson (t : Task) : ofJson? t.toJson = some t := by
  have h := ofFields?_fields t
  simpa [ofJson?, toJson, Json.member?] using h

/-- The task that a JSON text writes. -/
def ofText? (t : Text) : Option Task := (Json.read? t).bind ofJson?

lemma ofText?_pretty (t : Task) : ofText? (t.toJson.pretty 0) = some t := by
  rw [ofText?, Json.read?_pretty t.writable_toJson, Option.bind_some, ofJson?_toJson]

/-- **The JSON text of a task writes the task**, and just it: its strings over all of Unicode, its
date in whichever year, and tags in any number. So what is printed for a line as JSON is read as the
task that the line is interpreted as, with the default priority where the line has none, and with
every other field as it is. -/
theorem ofText?_printed :
    (∀ t : Task, ofText? (t.toJson.pretty 0) = some t) ∧
      ∀ (now : Instant) (c : Config) (text : Text) (given : Option Instant),
        let t := interpret Resolver.english (given.getD now) text
        ofText? (Command.run now c (.parse text given true)) =
          some { t with priority := t.priority.or c.defaultPriority } := by
  refine ⟨ofText?_pretty, fun now c text given => ?_⟩
  have hrun : Command.run now c (.parse text given true) =
      (Command.taskOf (given.getD now) c text).toJson.pretty 0 := by
    rw [Command.run, Command.output, Bool.true_or, if_pos rfl]
    exact List.append_nil _
  rw [hrun, ofText?_pretty]
  rfl

end Task

end TaskCapture
