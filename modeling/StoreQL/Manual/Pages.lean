/-
# Pages of the manual

The texts that the manual consists of, a page for each category and one that lists the categories.
-/
namespace StoreQL.Manual

/-- The text of some lines. -/
def page (lines : List String) : String := String.join (lines.map (fun l => l ++ "\n"))

/-- The page that lists the categories. -/
def overviewPage : String := page [
  "STOREQL DOCUMENTATION",
  "",
  "StoreQL is a small query language over store records. Every query is a single",
  "statement that names a collection (products, orders, stores, customers) and",
  "optionally adds clauses.",
  "",
  "DOCUMENTATION CATEGORIES",
  "",
  "  statements        SELECT, FIND, UPDATE, and ANALYZE",
  "  clauses           WHERE, ORDER BY, LIMIT, GROUP BY, and CONCURRENT",
  "  tokens            Keywords, identifiers, literals, and operators",
  "  entities          Collections a query can name and how they are resolved",
  "  results           Shape of the JSON result and error messages",
  "",
  "QUICK REFERENCE",
  "",
  "  SELECT * FROM products LIMIT 10",
  "  SELECT name FROM products",
  "  FIND orders WHERE status = 'pending' ORDER BY created_at DESC",
  "  UPDATE products SET price = 9.99 CONCURRENT 4",
  "  ANALYZE orders GROUP BY status",
  "",
  "Run 'storeql doc <category>' for detailed documentation.",
  "Run 'storeql grammar' to print the full BNF grammar."]

/-- The page on statements. -/
def statementsPage : String := page [
  "STATEMENTS",
  "",
  "A query is exactly one statement. Keywords are case-insensitive; collection",
  "and field names are not.",
  "",
  "SELECT",
  "  SELECT <field | *> FROM <collection> [WHERE ...] [ORDER BY ...] [LIMIT n]",
  "",
  "  Returns records from the collection. With '*' records are returned whole;",
  "  with a field name each record is reduced to an object holding only that",
  "  field. Dotted fields (supplier.name) reach into nested objects and keep the",
  "  nesting; missing fields come back as null.",
  "",
  "  Only a single field is accepted. 'SELECT name, price FROM products' is",
  "  rejected as unsupported.",
  "",
  "FIND",
  "  FIND <collection> [WHERE ...] [ORDER BY ...]",
  "",
  "  Returns whole records from the collection.",
  "",
  "UPDATE",
  "  UPDATE <collection> SET <field> = <value>[, <field> = <value> ...]",
  "         [WHERE ...] [CONCURRENT [n]]",
  "",
  "  Parsed and acknowledged. No records are changed.",
  "",
  "ANALYZE",
  "  ANALYZE <collection> [WHERE ...] [GROUP BY <field>]",
  "",
  "  Parsed and acknowledged. No aggregation is computed."]

/-- The page on clauses. -/
def clausesPage : String := page [
  "CLAUSES",
  "",
  "Clauses are parsed and shown by 'storeql parse', but results are not",
  "filtered, sorted, or truncated by them.",
  "",
  "WHERE <condition>",
  "  The condition text is skipped up to the next clause keyword. Any token",
  "  sequence is accepted.",
  "",
  "ORDER BY <field> [ASC | DESC]",
  "  Direction defaults to ASC.",
  "",
  "LIMIT <number>",
  "  SELECT only. The number is required.",
  "",
  "GROUP BY <field>",
  "  ANALYZE only.",
  "",
  "CONCURRENT [n]",
  "  UPDATE only. Worker count, 1 when omitted."]

/-- The page on tokens. -/
def tokensPage : String := page [
  "TOKENS",
  "",
  "KEYWORDS (case-insensitive)",
  "  SELECT FROM WHERE AND OR ORDER BY LIMIT GROUP ASC DESC FIND UPDATE SET",
  "  ANALYZE IN LIKE NULL TRUE FALSE CONCURRENT",
  "",
  "IDENTIFIERS",
  "  Letters, digits, and underscores, starting with a letter or underscore.",
  "  Kept exactly as written.",
  "",
  "NUMBERS",
  "  42, 19.99, and 12. (a trailing dot is part of the number)",
  "",
  "STRINGS",
  "  'single' or \"double\" quoted. No escape sequences. A string that is never",
  "  closed is a lexical error.",
  "",
  "OPERATORS",
  "  = != == < > <= >= + -",
  "",
  "PUNCTUATION",
  "  ( ) , . *",
  "",
  "Any other character is a lexical error. Run 'storeql tokenize <query>' to",
  "see how a query is split."]

/-- The page on entities. -/
def entitiesPage : String := page [
  "ENTITIES",
  "",
  "  products     backed by the data set",
  "  orders       backed by the data set",
  "  stores       backed by the data set",
  "  customers    accepted, always empty",
  "",
  "Names are matched exactly: 'Products' and 'PRODUCTS' are unknown and return",
  "no records rather than an error.",
  "",
  "SELECT and FIND return at most --fetch-limit records (default 100). The",
  "count in the result is always the size of the whole collection.",
  "",
  "The data set is a JSON object with one array per collection:",
  "",
  "  \x7b\"products\": [...], \"orders\": [...], \"stores\": [...]\x7d",
  "",
  "Pass it with --input, --data <file>, or on stdin."]

/-- The page on results. -/
def resultsPage : String := page [
  "RESULTS",
  "",
  "Every executed query returns:",
  "",
  "  \x7b",
  "    \"type\": \"SELECT\" | \"FIND\" | \"UPDATE\" | \"ANALYZE\",",
  "    \"data\": [...],",
  "    \"count\": <total records in the collection>,",
  "    \"success\": true,",
  "    \"message\": \"...\"",
  "  \x7d",
  "",
  "Messages:",
  "  Selected <count> records FROM <collection>",
  "  Found <count> <collection>",
  "  Executed UPDATE <collection>",
  "  Executed ANALYZE <collection>",
  "",
  "ERRORS",
  "",
  "  lexical analysis failed: ...   bad character or unterminated string",
  "  parsing failed: ...            malformed statement",
  "  execution failed: ...          data set could not be read"]

end StoreQL.Manual
