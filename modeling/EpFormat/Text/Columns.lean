import EpFormat.Text.Ranges

/-!
# Columns — texts in columns

A text that is wider than its column is kept whole.
-/
namespace EpFormat.Text

def padRight (width : Nat) (t : Text) : Text := t ++ List.replicate (width - t.length) ' '

def padLeft (width : Nat) (t : Text) : Text := List.replicate (width - t.length) ' ' ++ t

end EpFormat.Text
