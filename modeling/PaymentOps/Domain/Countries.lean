import PaymentOps.Lib.Dict
import PaymentOps.Lib.Text

/-!
# Countries

The country codes that are treated as valid, and the names of countries.
-/

namespace PaymentOps

open Text

/-- The country codes of the standard, as the source lists them. -/
def validCountryCodes : List String :=
  ["AD", "AE", "AR", "AT", "AU", "BE", "BG", "BR", "CA", "CH", "CN", "CY", "CZ", "DE", "DK", "EE",
    "ES", "FI", "FR", "GB", "GR", "HR", "HU", "IE", "IL", "IN", "IS", "IT", "JP", "KR", "LI", "LT",
    "LU", "LV", "MC", "MT", "MX", "NL", "NO", "NZ", "PL", "PT", "RO", "RS", "RU", "SE", "SI", "SK",
    "SM", "TR", "UA", "US", "ZA"]

/-- Names in upper case, with the code of the country. -/
def countryNameToCode : Dict String String :=
  [("AUSTRIA", "AT"), ("BELGIUM", "BE"), ("BULGARIA", "BG"), ("BRAZIL", "BR"), ("CANADA", "CA"),
    ("SWITZERLAND", "CH"), ("CHINA", "CN"), ("CYPRUS", "CY"), ("CZECHIA", "CZ"),
    ("CZECH REPUBLIC", "CZ"), ("GERMANY", "DE"), ("DENMARK", "DK"), ("ESTONIA", "EE"),
    ("SPAIN", "ES"), ("FINLAND", "FI"), ("FRANCE", "FR"), ("UNITED KINGDOM", "GB"),
    ("GREECE", "GR"), ("CROATIA", "HR"), ("HUNGARY", "HU"), ("IRELAND", "IE"), ("ISRAEL", "IL"),
    ("INDIA", "IN"), ("ICELAND", "IS"), ("ITALY", "IT"), ("JAPAN", "JP"), ("LIECHTENSTEIN", "LI"),
    ("LITHUANIA", "LT"), ("LUXEMBOURG", "LU"), ("LATVIA", "LV"), ("MONACO", "MC"), ("MALTA", "MT"),
    ("MEXICO", "MX"), ("NETHERLANDS", "NL"), ("NORWAY", "NO"), ("NEW ZEALAND", "NZ"),
    ("POLAND", "PL"), ("PORTUGAL", "PT"), ("ROMANIA", "RO"), ("SERBIA", "RS"), ("RUSSIA", "RU"),
    ("SWEDEN", "SE"), ("SLOVENIA", "SI"), ("SLOVAKIA", "SK"), ("SAN MARINO", "SM"),
    ("TURKEY", "TR"), ("UKRAINE", "UA"), ("UNITED STATES", "US"),
    ("UNITED STATES OF AMERICA", "US"), ("SOUTH AFRICA", "ZA")]

/-- `is_valid_country_code`. -/
def isValidCountryCode (code : String) : Bool := validCountryCodes.contains code

/-- The code for a country name, `none` if it is unknown. -/
def normalizeCountryName (u : Unicode) (name : String) : Option String :=
  countryNameToCode.get (u.upper (strip name))

end PaymentOps
