import UserDirectory.Config.Validate
import UserDirectory.Text.Lines

/-!
# Placeholders

A configuration file may leave a value to the environment: `$` and a name in braces stand for the
variable of that name. Placeholders are replaced line by line, before the file is read as anything
else. Those that begin behind the first `#` of a line stay as they are, and so does what was put in
for another one.
-/

namespace UserDirectory

/-- **The variables of the environment.** -/
abbrev Environment := String → Option String

/-- The environment of a list of variables. -/
def Environment.ofTable (values : Table String) : Environment := values.get?

/-- The name of the placeholder whose `$` and opening brace have been read, and what follows it. -/
def placeholderName? (cs : List Char) : Option (String × List Char) :=
  match cs.takeWhile (· != '\x7d'), cs.dropWhile (· != '\x7d') with
  | name@(_ :: _), _ :: rest => some (String.ofList name, rest)
  | _, _ => none

theorem placeholderName?_length {cs rest : List Char} {name : String}
    (h : placeholderName? cs = some (name, rest)) : rest.length < cs.length := by
  have split : (cs.takeWhile (· != '\x7d')).length + (cs.dropWhile (· != '\x7d')).length
      = cs.length := by
    rw [← List.length_append, List.takeWhile_append_dropWhile]
  unfold placeholderName? at h
  split at h
  · next c t d r hname hrest =>
    simp only [Option.some.injEq, Prod.mk.injEq] at h
    rw [hname, hrest] at split
    simp only [List.length_cons] at split
    rw [← h.2]
    omega
  · simp at h

/-- **A line with its placeholders replaced**, up to the first `#`. -/
def expandLine (env : Environment) : List Char → ConfigResult (List Char)
  | [] => .ok []
  | '#' :: rest => .ok ('#' :: rest)
  | '$' :: '\x7b' :: rest =>
    match h : placeholderName? rest with
    | none => (expandLine env ('\x7b' :: rest)).map ('$' :: ·)
    | some (name, after) =>
      have := placeholderName?_length h
      match env name with
      | none => .error (.variableNotFound name)
      | some value =>
        -- a name can hold the first `#` of the line
        if name.toList.contains '#' then .ok (value.toList ++ after)
        else (expandLine env after).map (value.toList ++ ·)
  | c :: rest => (expandLine env rest).map (c :: ·)
termination_by cs => cs.length
decreasing_by all_goals simp_wf <;> omega

/-- **A text with its placeholders replaced.** Lines end in a line feed alone afterwards. -/
def expandPlaceholders (env : Environment) (text : String) : ConfigResult String := do
  let cs := text.toList
  let lines ← (linesOf cs).mapM (expandLine env)
  let expanded := unlines lines
  pure (String.ofList (if cs.getLast? == some '\n' then expanded else expanded.dropLast))

end UserDirectory
