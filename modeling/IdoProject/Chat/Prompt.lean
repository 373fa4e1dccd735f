import IdoProject.Prefs
import IdoProject.Store.UserFiles

/-!
# The prompt of a question

`PromptBuilder.build` joins the system prompt, the last messages of the
conversation and the question.
-/

namespace IdoProject
namespace Chat

open Java Store

/-- One line of the previous conversation.  An empty answer is left out. -/
def promptLine (message : Message) : JString :=
  if message.sender = 0 then
    jstr "User: " ++ message.content ++ jstr "\n"
  else if message.content.isEmpty then []
  else jstr "Assistant: " ++ message.content ++ jstr "\n"

/-- The last messages of the conversation that the window keeps. -/
def includedMessages
    (maxContextMessages : Int)
    (messages : List Message) : List Message :=
  let messagesToInclude := min (messages.length : Int) maxContextMessages
  let startIdx := max 0 ((messages.length : Int) - messagesToInclude)
  messages.drop startIdx.toNat

/-- `PromptBuilder.build`. -/
def buildPrompt
    (prefs : Prefs)
    (messages : List Message)
    (userInput : JString) : JString :=
  jstr "### System\n" ++ prefs.getEffectiveSystemPrompt ++ jstr "\n\n" ++
    (if messages.isEmpty then []
    else
      jstr "### Previous Conversation\n" ++
        (includedMessages prefs.maxContextMessages messages).flatMap promptLine ++
        jstr "\n") ++
    jstr "### Current Question\n" ++
    jstr "User: " ++ userInput ++ jstr "\n" ++
    jstr "Assistant:"

end Chat
end IdoProject
