import RespStore.Frame.Basic
import RespStore.Number.Decimal
import RespStore.Text.Lossy

/-! The wire form of a frame, and the text in which error messages show one. -/
namespace RespStore.Frame

mutual

/-- The wire form. Replies use the two older forms of null where there is a choice. -/
def serialize : Frame → Bytes
  | .simple text => 43 :: (Bytes.ofString text ++ Bytes.crlf)
  | .error text => 45 :: (Bytes.ofString text ++ Bytes.crlf)
  | .integer value => 58 :: (Decimal.bytes value.toInt ++ Bytes.crlf)
  | .bulk data => 36 :: (Decimal.bytes data.length ++ Bytes.crlf ++ data ++ Bytes.crlf)
  | .null => 95 :: Bytes.crlf
  | .nullBulk => 36 :: (Decimal.bytes (-1) ++ Bytes.crlf)
  | .nullArray => 42 :: (Decimal.bytes (-1) ++ Bytes.crlf)
  | .array items => 42 :: (Decimal.bytes items.length ++ Bytes.crlf ++ serializeAll items)

def serializeAll : List Frame → Bytes
  | [] => []
  | frame :: rest => serialize frame ++ serializeAll rest

end

mutual

/-- The text that messages show for a frame. Bulk data is shown as text, whatever it holds. -/
def display : Frame → String
  | .simple text => "+" ++ text
  | .error text => "-" ++ text
  | .integer value => ":" ++ toString value.toInt
  | .bulk data => "$" ++ Text.lossy data
  | .null => "_"
  | .nullBulk => "$-1"
  | .nullArray => "*-1"
  | .array items => "*" ++ toString items.length ++ "\r\n" ++ displayAll items

def displayAll : List Frame → String
  | [] => ""
  | frame :: rest => display frame ++ "\r\n" ++ displayAll rest

end

end RespStore.Frame
