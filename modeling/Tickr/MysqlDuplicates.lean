import Tickr.MysqlRows

/-! Which messages the MySQL adapter takes for duplicates. The unique key and the look-up
behind ErrDuplicate both compare under the collation of the table, so what one of them
refuses the other finds; whether it is the same key is for the collation to say. -/
namespace Tickr.Mysql

open KeyedTable

variable {cfg : Config}

/-- A collation that folds the case of letters, as the default one of MySQL 8 does. -/
def folding : Config :=
  { Config.binary with collate := fun text => String.ofList (text.toList.map Char.toLower) }

def keyedMail (key : String) : EnqueueParams := ⟨"mail", some [], [], key, 3, some 0⟩

end Tickr.Mysql
