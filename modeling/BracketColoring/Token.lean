/-!
# Token trees

A tokenizer answers with a tree of tokens whose leaves are the pieces of the document, in order.
Bracket literals are looked for in punctuation nodes only.
-/

namespace BracketColoring

/-- What a token is. -/
inductive Category where
  | punctuation
  | comment
  | string
  | other (name : String)
deriving DecidableEq, Repr, Inhabited

/-- A piece of text, several tokens in a row, or a token with a category. -/
inductive Token where
  | text (content : String)
  | list (children : List Token)
  | node (category : Category) (inner : Token)
deriving Repr, Inhabited

namespace Token

/-- A punctuation node around a text. -/
def punctuation (content : List Char) : Token := .node .punctuation (.text (String.ofList content))

def leaf (category : Category) (content : List Char) : Token :=
  .node category (.text (String.ofList content))

/-- A text without a category. -/
def plain (content : List Char) : Token := .text (String.ofList content)

end Token

/-- Why a document has no tokens. -/
inductive TokenizeError where
  | unsupportedLanguage (language : String)
  | failed (reason : String)
deriving DecidableEq, Repr, Inhabited

def TokenizeError.message : TokenizeError → String
  | .unsupportedLanguage language => "no grammar for language '" ++ language ++ "'"
  | .failed reason => "tokenization failed: " ++ reason

/-- A tokenizer turns a text into tokens or fails, and may be another tokenizer afterwards. -/
class Tokenizer (τ : Type) where
  tokenize : τ → String → Except TokenizeError Token × τ

end BracketColoring
