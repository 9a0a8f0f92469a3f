import RespStore.Text.Lossy

/-! Glob patterns. What they match is left to a library for the paths of files. -/
namespace RespStore.Glob

/-- Tells whether a pattern accepts a text. -/
class Matcher where
  accepts (pattern text : String) : Bool

/-- A single star accepts the texts without a path separator, as the library documents it. -/
def Matcher.StarStopsAtSlash (matcher : Matcher) : Prop :=
  ∀ text : String, matcher.accepts "*" text = true ↔ '/' ∉ text.toList

/-- Whether the text of a key, whatever bytes it holds, matches a pattern. -/
def matchesKey [matcher : Matcher] (pattern : String) (key : Bytes) : Bool :=
  matcher.accepts pattern (Text.lossy key)

end RespStore.Glob
