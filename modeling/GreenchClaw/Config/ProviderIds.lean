import GreenchClaw.Js.Text

/-!
# Provider ids

The part of `src/agents/provider-id.ts` that the auth profiles use: one name for a provider that
has several.
-/

namespace GreenchClaw.Config

open GreenchClaw.Js

def PROVIDER_ALIASES : List (JsString × JsString) :=
  [(js "modelstudio", js "qwen"), (js "qwencloud", js "qwen"), (js "z.ai", js "zai"),
    (js "z-ai", js "zai"), (js "opencode-zen", js "opencode"),
    (js "opencode-go-auth", js "opencode-go"), (js "anthropic-cli", js "claude-cli"),
    (js "kimi", js "kimi"), (js "kimi-code", js "kimi"), (js "kimi-coding", js "kimi"),
    (js "moonshotai", js "moonshot"), (js "moonshot-ai", js "moonshot"),
    (js "bedrock", js "amazon-bedrock"), (js "aws-bedrock", js "amazon-bedrock"),
    (js "bytedance", js "volcengine"), (js "doubao", js "volcengine")]

def normalizeProviderId [UnicodeCase] (provider : JsString) : JsString :=
  let normalized := normalizeLowercaseStringOrEmpty (some provider)
  (PROVIDER_ALIASES.lookup normalized).getD normalized

end GreenchClaw.Config
