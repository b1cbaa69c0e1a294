import DocumentViews.Definition.Index
import DocumentViews.Query.Extension

set_option autoImplicit false

namespace DocumentViews

namespace Analyzer

def builtins : List String :=
  ["StandardAnalyzer", "WhitespaceAnalyzer", "SimpleAnalyzer", "StopAnalyzer", "KeywordAnalyzer",
    "LowerCaseKeywordAnalyzer", "LowerCaseWhitespaceAnalyzer", "NGramAnalyzer"]

def qualify (name : String) : String := "analysis." ++ name

def resolve (name : String) : String :=
  if builtins.contains name then qualify name else name

def isKnown (extensions : Extensions) (name : String) : Bool :=
  (builtins.map qualify).contains name || extensions.hasAnalyzer name

end Analyzer

namespace IndexDefinition

def resolveAnalyzers (definition : IndexDefinition) : IndexDefinition :=
  { definition with analyzers := definition.analyzers.mapValues Analyzer.resolve }

end IndexDefinition
end DocumentViews
