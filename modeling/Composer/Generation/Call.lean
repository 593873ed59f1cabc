import Composer.Generation.Run
import Composer.Provider.Gateway

/-!
The calls that a task makes when its provider is reached through the gateway.
-/

namespace Composer

/-- The name of the model that a prepared request is sent to. -/
def PreparedRequest.routedModel (p : PreparedRequest) : Text := p.provider.routedModel p.model

def PreparedRequest.call (p : PreparedRequest) (settings : Settings) (userPrompt : Text) :
    Gateway.Call where
  model := p.routedModel
  systemPrompt := p.systemPrompt
  userPrompt := userPrompt
  maxTokens := settings.maxTokens
  temperature := none
  apiKey := some p.apiKey
  extra := []

def Task.calls (t : Task) (settings : Settings) : List Gateway.Call :=
  t.askedPrompts.map (t.prepared.call settings)

end Composer
