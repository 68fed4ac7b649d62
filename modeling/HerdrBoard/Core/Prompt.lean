import HerdrBoard.Core.Engine.Validation

/-!
# Prompt assembly and effective settings
-/

namespace HerdrBoard.Core

/-- Number of trailing comments folded into the run prompt. -/
def MAX_PROMPT_COMMENTS : Nat := 20

def PROMPT_CLOSEOUT : String :=
  "(When the stage goal is met, finish with " ++
  "`board comment \"<results>\"` then `board done --outcome ok` — or `--outcome fail` " ++
  "if the goal was not met. Without `board done` the card stays in `awaiting` " ++
  "pending human review.)"

/-- `s.trim_end_matches('\n')`. -/
def trimEndNewlines (s : String) : String :=
  String.ofList (s.toList.reverse.dropWhile (· == '\n')).reverse

def commentLine (c : Comment) : String := c.author ++ " (" ++ c.createdAt ++ "): " ++ c.body ++ "\n"

/-- The card description, the last comments, and the close-out reminder. -/
def assemblePrompt (description : String) (comments : List Comment) : String :=
  let recent := comments.drop (comments.length - MAX_PROMPT_COMMENTS)
  let body :=
    if comments.isEmpty then description
    else trimEndNewlines
      (description ++ "\n\n## Card comments\n" ++ String.join (recent.map commentLine))
  body ++ "\n\n" ++ PROMPT_CLOSEOUT

/-- Settings for running `card` in `column`: a column override wins over the card value. -/
def effectiveSettings (card : Card) (column : Column) :
    Except ValidationError EffectiveSettings := do
  validateColumnPermissionOverride column.permissionOverride
  pure
    { harness := effectiveHarness card column
      model := column.modelOverride <|> card.model
      effort := match column.effortOverride with
        | some s => Effort.parseStr s
        | none => card.effort
      permissionMode := column.permissionOverride <|> card.permissionMode
      systemPrompt := column.systemPrompt
      freshSession := column.freshSession
      timeoutMinutes := column.timeoutMinutes }

end HerdrBoard.Core
