/-!
# Faults of a document

The reasons for which a text is not a well-formed document. Which of them applies is not shown to
people, who are only told that the document is malformed.
-/

namespace SqlMapper.Markup

/-- Why a text is not a well-formed document. -/
inductive Fault where
  /-- The text does not go on as the construct at hand demands. -/
  | unexpectedText
  /-- A character that no document may hold. -/
  | forbiddenCharacter
  /-- A name that is empty or begins with a character inside names only. -/
  | invalidName
  /-- Two hyphens inside a comment, or one at its end. -/
  | invalidComment
  /-- The end of a character data section in plain text. -/
  | invalidText
  /-- A declaration that is not at the very start. -/
  | misplacedDeclaration
  /-- An ampersand that begins no reference. -/
  | malformedReference
  /-- A reference to an entity that is not declared. -/
  | unknownEntity
  /-- Entities nested too deeply or too often. -/
  | entityLoop
  /-- A less-than sign that enters an attribute value through an entity. -/
  | markupInValue
  /-- A namespace bound against the rules for reserved names. -/
  | reservedNamespace
  /-- A namespace name declared twice in one tag. -/
  | repeatedNamespace
  /-- A name whose namespace is not declared. -/
  | unknownNamespace
  /-- Two attributes of one name in one tag. -/
  | repeatedAttribute
  /-- An end tag that closes no element, or another one. -/
  | unexpectedEndTag
  /-- No root element, or one that is not closed. -/
  | incompleteRoot
  deriving Repr, DecidableEq

end SqlMapper.Markup
