import OnePassSql.Proofs.Database.Taxonomy

/-!
What CREATE TABLE is answered with: the table is made, the text is invalid, or a default does not fit
its column. Defaults are whole expressions, so one of them can come to a membership test as well, and
that is the only internal error.
-/

namespace OnePassSql.Database

open Step

end OnePassSql.Database
