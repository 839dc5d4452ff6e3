import LexLint.Checker.Basic
import LexLint.Scan.Word
import LexLint.Vocabulary

/-!
Reports keywords without their marker `$`. A keyword counts as bare when a blank follows it
directly.
-/

namespace LexLint.KeywordSuffix

/-- The bare keywords of a code view. -/
def bareKeywords (code : List Char) : List Word :=
  ((scanSites code).filter fun s =>
    Vocabulary.markedKeywords.contains s.word.text && s.after.head?.any isBlank).map (·.word)

def site (w : Word) : Site :=
  .at .missingKeywordSuffix
    s!"Keyword '{w.text}' should be followed by $ (use '{w.text}$')" w.start w.stop

def sites (source : Source) (_ : Options) : List Site := (bareKeywords source.code).map site

def checker : Checker :=
  .ofSites "keyword-suffix" "KeywordSuffixChecker" "Keywords missing their '$' suffix"
    [.missingKeywordSuffix] sites

end LexLint.KeywordSuffix
