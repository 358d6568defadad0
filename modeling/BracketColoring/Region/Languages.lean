import BracketColoring.Ordered
import BracketColoring.Region

/-!
# Languages with region lexers

Rules for families of languages, and a table from language names to lexers.
-/

namespace BracketColoring

namespace RegionLexer

/-- Line and block comments, strings in double quotes, and character literals. -/
def cLikeRules : List Rule :=
  [⟨"//[^\\n]*", .comment⟩,
    ⟨"/\\*(?s:.)*?\\*/", .comment⟩,
    ⟨"\"(?:\\\\.|[^\"\\\\\\n])*\"", .string⟩,
    ⟨"'(?:\\\\.|[^'\\\\\\n])'", .string⟩]

/-- Strings in double quotes, which may hold line feeds. -/
def jsonRules : List Rule := [⟨"\"(?:\\\\.|[^\"\\\\])*\"", .string⟩]

/-- Comments from a hash to the end of the line, and strings in double or single quotes. -/
def hashCommentRules : List Rule :=
  [⟨"#[^\\n]*", .comment⟩,
    ⟨"\"(?:\\\\.|[^\"\\\\\\n])*\"", .string⟩,
    ⟨"'(?:\\\\.|[^'\\\\\\n])*'", .string⟩]

def cLike? : Option RegionLexer := ofRules? cLikeRules

def json? : Option RegionLexer := ofRules? jsonRules

def hashComments? : Option RegionLexer := ofRules? hashCommentRules

/-- No regions: every run of symbols is punctuation. -/
def plain? : Option RegionLexer := ofRules? []

end RegionLexer

/-- Lexers by language, in increasing order of the language names. -/
abbrev RegionLanguages := List (String × RegionLexer)

namespace RegionLanguages

/-- Gives a language a lexer, in place of the one it had. -/
def register (table : RegionLanguages) (language : String) (lexer : RegionLexer) :
    RegionLanguages :=
  Ordered.insertEntry language lexer table

def names (table : RegionLanguages) : List String := table.map (·.1)

def lookup? (table : RegionLanguages) (language : String) : Option RegionLexer :=
  (table.find? fun entry => entry.1 = language).map (·.2)

def cLikeNames : List String :=
  ["c", "cpp", "csharp", "go", "java", "javascript", "kotlin", "rust", "swift", "typescript"]

def hashCommentNames : List String := ["python", "ruby", "shellscript", "toml", "yaml"]

/-- The lexers of common languages. -/
def defaults? : Option RegionLanguages := do
  let cLike ← RegionLexer.cLike?
  let hash ← RegionLexer.hashComments?
  let json ← RegionLexer.json?
  let plain ← RegionLexer.plain?
  return Ordered.table (cLikeNames.map (·, cLike) ++ hashCommentNames.map (·, hash)
    ++ [("json", json), ("plaintext", plain)])

end RegionLanguages

end BracketColoring
