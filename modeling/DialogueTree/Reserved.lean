/-!
# Reserved words

A document is a table from names to nodes, and a few names and tokens in it are
taken. They all begin with the same mark, so that a line of text and a directive
can be told apart by their first two characters.
-/

namespace DialogueTree.Reserved

/-- Every directive begins with this mark. -/
def mark : String := "::"

/-- The node on which a walk starts unless told otherwise. -/
def start : String := "::START"

/-- Ends the walk. It is also what a channel answers once its input is over. -/
def quit : String := "::QUIT"

/-- Does nothing. It is also what an input that selects no option stands for. -/
def stay : String := "::NONE"

/-- Moves the cursor to the node named after it. -/
def goto : String := "::GOTO"

/-- The key under which a document lists the documents merged into it. -/
def includes : String := "::INCLUDE"

/-- The extension of document files unless told otherwise, without its dot. -/
def extension : String := "json"

end DialogueTree.Reserved
