/-
# The grammar of the query language

The rules in which the language is published. Nothing reads queries by them: they are for the
reader, and say a little more than is accepted, as in lists of fields.
-/
import StoreQL.Grammar.Basic

namespace StoreQL

/-- The grammar of queries. -/
def queryGrammar : Grammar where
  start := "query"
  rules := [
    ⟨"query", ["select-stmt"]⟩,
    ⟨"query", ["find-stmt"]⟩,
    ⟨"query", ["update-stmt"]⟩,
    ⟨"query", ["analyze-stmt"]⟩,
    ⟨"select-stmt", ["SELECT", "field-list", "FROM", "source"]⟩,
    ⟨"select-stmt", ["SELECT", "field-list", "FROM", "source", "where-clause"]⟩,
    ⟨"select-stmt", ["SELECT", "field-list", "FROM", "source", "where-clause", "order-clause"]⟩,
    ⟨"select-stmt", ["SELECT", "field-list", "FROM", "source", "where-clause", "order-clause",
      "limit-clause"]⟩,
    ⟨"find-stmt", ["FIND", "entity"]⟩,
    ⟨"find-stmt", ["FIND", "entity", "where-clause"]⟩,
    ⟨"find-stmt", ["FIND", "entity", "where-clause", "order-clause"]⟩,
    ⟨"update-stmt", ["UPDATE", "entity", "SET", "assignment-list"]⟩,
    ⟨"update-stmt", ["UPDATE", "entity", "SET", "assignment-list", "where-clause"]⟩,
    ⟨"update-stmt", ["UPDATE", "entity", "SET", "assignment-list", "where-clause",
      "concurrent-clause"]⟩,
    ⟨"analyze-stmt", ["ANALYZE", "entity"]⟩,
    ⟨"analyze-stmt", ["ANALYZE", "entity", "where-clause"]⟩,
    ⟨"analyze-stmt", ["ANALYZE", "entity", "where-clause", "group-clause"]⟩,
    ⟨"field-list", ["field"]⟩,
    ⟨"field-list", ["field", ",", "field-list"]⟩,
    ⟨"field-list", ["*"]⟩,
    ⟨"source", ["entity"]⟩,
    ⟨"source", ["store", "string"]⟩,
    ⟨"entity", ["products"]⟩,
    ⟨"entity", ["orders"]⟩,
    ⟨"entity", ["stores"]⟩,
    ⟨"entity", ["customers"]⟩,
    ⟨"where-clause", ["WHERE", "condition"]⟩,
    ⟨"condition", ["comparison"]⟩,
    ⟨"condition", ["condition", "logical-op", "condition"]⟩,
    ⟨"condition", ["(", "condition", ")"]⟩,
    ⟨"comparison", ["field", "operator", "value"]⟩,
    ⟨"logical-op", ["AND"]⟩,
    ⟨"logical-op", ["OR"]⟩,
    ⟨"order-clause", ["ORDER", "BY", "field"]⟩,
    ⟨"order-clause", ["ORDER", "BY", "field", "direction"]⟩,
    ⟨"direction", ["ASC"]⟩,
    ⟨"direction", ["DESC"]⟩,
    ⟨"limit-clause", ["LIMIT", "number"]⟩,
    ⟨"group-clause", ["GROUP", "BY", "field"]⟩,
    ⟨"concurrent-clause", ["CONCURRENT"]⟩,
    ⟨"concurrent-clause", ["CONCURRENT", "number"]⟩,
    ⟨"assignment-list", ["assignment"]⟩,
    ⟨"assignment-list", ["assignment", ",", "assignment-list"]⟩,
    ⟨"assignment", ["field", "=", "value"]⟩,
    ⟨"field", ["identifier"]⟩,
    ⟨"field", ["identifier", ".", "identifier"]⟩,
    ⟨"value", ["string"]⟩,
    ⟨"value", ["number"]⟩,
    ⟨"value", ["boolean"]⟩,
    ⟨"value", ["NULL"]⟩,
    ⟨"boolean", ["TRUE"]⟩,
    ⟨"boolean", ["FALSE"]⟩,
    ⟨"operator", ["="]⟩,
    ⟨"operator", ["!="]⟩,
    ⟨"operator", ["<"]⟩,
    ⟨"operator", [">"]⟩,
    ⟨"operator", ["<="]⟩,
    ⟨"operator", [">="]⟩,
    ⟨"operator", ["LIKE"]⟩,
    ⟨"operator", ["IN"]⟩]

end StoreQL
