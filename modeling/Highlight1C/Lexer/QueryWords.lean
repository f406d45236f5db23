import Highlight1C.Lexer.Lexicon

/-!
# The words of queries

Queries are written with English or Russian words, in letters of either case. Some words stand in
more than one list; the first list decides.
-/

namespace Highlight1C.QueryWords

/-- The words of expressions and of periods of time. -/
def keywords : List String :=
  ["AND", "И", "OR", "ИЛИ", "IN", "В", "HIERARCHY", "ИЕРАРХИИ", "NOT", "НЕ", "BETWEEN", "МЕЖДУ",
   "LIKE", "ПОДОБНО", "ESCAPE", "СПЕЦСИМВОЛ", "NULL", "IS", "ЕСТЬ", "CASE", "ВЫБОР", "WHEN",
   "КОГДА", "THEN", "ТОГДА", "ELSE", "ИНАЧЕ", "END", "КОНЕЦ", "CAST", "ВЫРАЗИТЬ", "TRUE", "ИСТИНА",
   "FALSE", "ЛОЖЬ", "REFS", "ССЫЛКА", "UNDEFINED", "НЕОПРЕДЕЛЕНО", "DAY", "ДЕНЬ", "HOUR", "ЧАС",
   "MINUTE", "МИНУТА", "MONTH", "МЕСЯЦ", "QUARTER", "КВАРТАЛ", "SECOND", "СЕКУНДА", "WEEK",
   "НЕДЕЛЯ", "YEAR", "ГОД", "TENDAYS", "ДЕКАДА", "HALFYEAR", "ПОЛУГОДИЕ"]

/-- What a database is made of. -/
def objects : List String :=
  ["database", "databases", "table", "tables", "column", "columns", "fields", "index", "constraint",
   "constraints", "transaction", "function", "procedure", "row", "key", "view", "trigger"]

/-- The words that begin or join the clauses of a query. -/
def clauses : List String :=
  ["SELECT", "ВЫБРАТЬ", "FROM", "ИЗ", "WHERE", "ГДЕ", "ORDER", "УПОРЯДОЧИТЬ", "BY", "ПО", "ON",
   "DESC", "УБЫВ", "HIERARCHY", "ИЕРАРХИЯ", "ONLY", "ТОЛЬКО", "GROUP", "СГРУППИРОВАТЬ", "DISTINCT",
   "РАЗЛИЧНЫЕ", "TOP", "ПЕРВЫЕ", "HAVING", "ИМЕЮЩИЕ", "LEFT", "ЛЕВОЕ", "RIGHT", "ПРАВОЕ", "FULL",
   "ПОЛНОЕ", "INNER", "ВНУТРЕННЕЕ", "JOIN", "СОЕДИНЕНИЕ", "UNION", "ОБЪЕДИНИТЬ", "ALL", "ВСЕ",
   "NUMBER", "ЧИСЛО", "BOOLEAN", "БУЛЕВО", "STRING", "СТРОКА", "DATE", "ДАТА", "AS", "КАК",
   "TOTALS", "ИТОГИ", "OVERALL", "ОБЩИЕ", "AUTOORDER", "АВТОУПОРЯДОЧИВАНИЕ", "PERIODS", "ПЕРИОДАМИ",
   "FOR", "ДЛЯ", "UPDATE", "ИЗМЕНЕНИЯ", "ALLOWED", "РАЗРЕШЕННЫЕ", "INTO", "ПОМЕСТИТЬ", "DROP",
   "УНИЧТОЖИТЬ", "INDEX", "ИНДЕКСИРОВАТЬ", "VALUE", "ЗНАЧЕНИЕ", "VALUETYPE", "ТИПЗНАЧЕНИЯ", "TYPE",
   "ТИП", "CHARACTERISTICS", "ХАРАКТЕРИСТИКИ", "CHARACTERISTICTYPES", "ВИДЫХАРАКТЕРИСТИК", "LIST",
   "СПИСОК", "KEYFIELD", "ПОЛЕКЛЮЧА", "ID", "ИДЕНТИФИКАТОР", "NAMEFIELD", "ПОЛЕИМЕНИ", "NAME",
   "ИМЯ", "VALUETYPEFIELD", "ПОЛЕТИПАЗНАЧЕНИЯ", "CHARACTERISTICVALUES", "ЗНАЧЕНИЯХАРАКТЕРИСТИК",
   "VALUES", "ЗНАЧЕНИЯ", "OBJECTFIELD", "ПОЛЕОБЪЕКТА", "OBJECT", "ОБЪЕКТ", "TYPEFIELD", "ПОЛЕВИДА",
   "CHARACTERISTIC", "ХАРАКТЕРИСТИКА", "VALUEFIELD", "ПОЛЕЗНАЧЕНИЯ"]

/-- Types of columns. -/
def predefinedTypes : List String :=
  ["char", "varchar", "varchar2", "enum", "binary", "text", "tinytext", "mediumtext", "longtext",
   "blob", "tinyblob", "mediumblob", "longblob", "timestamp", "date", "time", "datetime", "year",
   "double", "decimal", "float", "int", "integer", "tinyint", "mediumint", "bigint", "smallint",
   "unsigned", "bit", "bool", "boolean", "hex", "bin", "oct"]

/-- Constants. All of them are among the keywords as well, which come first. -/
def predefinedConstants : List String :=
  ["null", "true", "false"]

/-- Functions. -/
def predefinedFunctions : List String :=
  ["sum", "cast", "substring", "abs", "pi", "count", "min", "max", "avg", "now"]

/-- The words that govern tables and columns. -/
def directives : List String :=
  ["auto_increment", "unique", "default", "charset", "initially", "deferred", "deferrable",
   "cascade", "immediate", "read", "write", "asc", "desc", "after", "primary", "foreign", "return",
   "engine"]

/-- The word lists with their kinds, in the order in which they decide. -/
def tables : List (List String × TokenKind) :=
  [(keywords, .keyword), (objects, .type), (clauses, .clause), (predefinedTypes, .predefinedType),
   (predefinedConstants, .predefinedConstant), (predefinedFunctions, .predefined),
   (directives, .directive)]

/-- The words of queries with their kinds. -/
def lexicon : Lexicon :=
  .ofTables tables

/-- The kind of a word on its own. -/
def classify (word : List Char) : TokenKind :=
  lexicon.classify word

end Highlight1C.QueryWords
