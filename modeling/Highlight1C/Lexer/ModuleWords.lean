import Highlight1C.Lexer.Lexicon

/-!
# The words of module code

Module code is written with English or Russian words, in letters of either case.
-/

namespace Highlight1C.ModuleWords

/-- The words of the language. -/
def keywords : List String :=
  ["If", "Если", "Then", "Тогда", "ElsIf", "ИначеЕсли", "Else", "Иначе", "EndIf", "КонецЕсли", "Do",
   "Цикл", "For", "Для", "To", "По", "Each", "Каждого", "In", "Из", "While", "Пока", "EndDo",
   "КонецЦикла", "Procedure", "Процедура", "EndProcedure", "КонецПроцедуры", "Function", "Функция",
   "EndFunction", "КонецФункции", "Var", "Перем", "Export", "Экспорт", "Val", "Знач", "Goto",
   "Перейти", "And", "И", "Or", "Или", "Not", "Не", "Break", "Прервать", "Continue", "Продолжить",
   "Return", "Возврат", "Try", "Попытка", "Except", "Исключение", "EndTry", "КонецПопытки", "Raise",
   "ВызватьИсключение", "False", "Ложь", "True", "Истина", "Undefined", "Неопределено", "Null",
   "New", "Новый", "Execute", "Выполнить", "AddHandler", "ДобавитьОбработчик", "RemoveHandler",
   "УдалитьОбработчик"]

/-- The directives, with the sign that begins them. -/
def directives : List String :=
  ["&НаКлиенте", "&НаСервере", "&НаСервереБезКонтекста", "&НаКлиентеНаСервереБезКонтекста",
   "&AtClient", "&AtServer", "&AtServerNoContext", "&AtClientAtServerNoContext"]

/-- The words after which the name of a subroutine follows, in lower case. -/
def nameAnnouncers : List String :=
  ["procedure", "function", "процедура", "функция"]

/-- The word lists with their kinds. -/
def tables : List (List String × TokenKind) :=
  [(keywords, .keyword), (directives, .directive)]

/-- The words of module code with their kinds. -/
def lexicon : Lexicon :=
  .ofTables tables

/-- The kind of a word on its own. -/
def classify (word : List Char) : TokenKind :=
  lexicon.classify word

/-- Whether a name follows after a word. -/
def announcesName (word : List Char) : Bool :=
  nameAnnouncers.any (·.toList == Text.lower word)

end Highlight1C.ModuleWords
