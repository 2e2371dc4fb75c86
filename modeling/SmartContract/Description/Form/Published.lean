/-!
The form of a description as it is published for other tools: a JSON Schema.
-/

namespace SmartContract.Form

def publishedLines : List String :=
  ["\x7b",
   "  \"$schema\": \"https://json-schema.org/draft/2020-12/schema\",",
   "  \"title\": \"SmartC Contract Description\",",
   "  \"type\": \"object\",",
   "  \"additionalProperties\": false,",
   "  \"required\": [",
   "    \"contractName\",",
   "    \"activationAmount\",",
   "    \"pragmas\",",
   "    \"methods\",",
   "    \"variables\",",
   "    \"maps\",",
   "    \"transactions\"",
   "  ],",
   "  \"properties\": \x7b",
   "    \"contractName\": \x7b \"type\": \"string\", \"minLength\": 1 \x7d,",
   "    \"description\": \x7b \"type\": \"string\", \"maxLength\": 320 \x7d,",
   "    \"activationAmount\": \x7b \"$ref\": \"#/$defs/uintString\" \x7d,",
   "    \"pragmas\": \x7b \"$ref\": \"#/$defs/pragmas\" \x7d,",
   "    \"methods\": \x7b",
   "      \"type\": \"array\",",
   "      \"items\": \x7b \"$ref\": \"#/$defs/method\" \x7d",
   "    \x7d,",
   "    \"variables\": \x7b",
   "      \"type\": \"array\",",
   "      \"items\": \x7b \"$ref\": \"#/$defs/variable\" \x7d",
   "    \x7d,",
   "    \"maps\": \x7b",
   "      \"type\": \"array\",",
   "      \"items\": \x7b \"$ref\": \"#/$defs/map\" \x7d",
   "    \x7d,",
   "    \"transactions\": \x7b",
   "      \"type\": \"array\",",
   "      \"items\": \x7b \"$ref\": \"#/$defs/transaction\" \x7d",
   "    \x7d",
   "  \x7d,",
   "  \"$defs\": \x7b",
   "    \"uintString\": \x7b",
   "      \"type\": \"string\",",
   "      \"pattern\": \"^[0-9]+$\"",
   "    \x7d,",
   "    \"name\": \x7b \"type\": \"string\", \"minLength\": 1 \x7d,",
   "    \"scalarType\": \x7b",
   "      \"enum\": [\"address\", \"boolean\", \"string\", \"long\", \"amount\", \"txId\"]",
   "    \x7d,",
   "    \"valueType\": \x7b",
   "      \"enum\": [",
   "        \"address\",",
   "        \"boolean\",",
   "        \"string\",",
   "        \"long\",",
   "        \"amount\",",
   "        \"txId\",",
   "        \"address[]\",",
   "        \"boolean[]\",",
   "        \"string[]\",",
   "        \"long[]\",",
   "        \"amount[]\",",
   "        \"txId[]\"",
   "      ]",
   "    \x7d,",
   "    \"variableType\": \x7b",
   "      \"anyOf\": [\x7b \"$ref\": \"#/$defs/valueType\" \x7d, \x7b \"const\": \"struct\" \x7d]",
   "    \x7d,",
   "    \"pragmas\": \x7b",
   "      \"type\": \"object\",",
   "      \"additionalProperties\": false,",
   "      \"required\": [\"maxAuxVars\", \"optimizationLevel\", \"verboseAssembly\", \"version\"],",
   "      \"properties\": \x7b",
   "        \"maxAuxVars\": \x7b \"type\": \"integer\", \"minimum\": 0, \"maximum\": 10 \x7d,",
   "        \"optimizationLevel\": \x7b \"type\": \"integer\", \"minimum\": 0, \"maximum\": 3 \x7d,",
   "        \"verboseAssembly\": \x7b \"type\": \"boolean\" \x7d,",
   "        \"version\": \x7b \"type\": \"string\", \"pattern\": \"^[0-9A-Za-z][0-9A-Za-z._-]*$\" \x7d,",
   "        \"codeStackPages\": \x7b \"type\": \"integer\", \"minimum\": 0, \"maximum\": 10 \x7d,",
   "        \"userStackPages\": \x7b \"type\": \"integer\", \"minimum\": 0, \"maximum\": 10 \x7d",
   "      \x7d",
   "    \x7d,",
   "    \"valueDefinition\": \x7b",
   "      \"type\": \"object\",",
   "      \"additionalProperties\": false,",
   "      \"required\": [\"name\", \"type\"],",
   "      \"properties\": \x7b",
   "        \"name\": \x7b \"$ref\": \"#/$defs/name\" \x7d,",
   "        \"type\": \x7b \"$ref\": \"#/$defs/valueType\" \x7d",
   "      \x7d",
   "    \x7d,",
   "    \"fieldDefinition\": \x7b",
   "      \"type\": \"object\",",
   "      \"additionalProperties\": false,",
   "      \"required\": [\"name\", \"type\"],",
   "      \"properties\": \x7b",
   "        \"name\": \x7b \"$ref\": \"#/$defs/name\" \x7d,",
   "        \"type\": \x7b \"$ref\": \"#/$defs/variableType\" \x7d",
   "      \x7d",
   "    \x7d,",
   "    \"method\": \x7b",
   "      \"type\": \"object\",",
   "      \"additionalProperties\": false,",
   "      \"required\": [\"name\", \"code\", \"args\"],",
   "      \"properties\": \x7b",
   "        \"name\": \x7b \"$ref\": \"#/$defs/name\" \x7d,",
   "        \"description\": \x7b \"type\": \"string\" \x7d,",
   "        \"code\": \x7b \"$ref\": \"#/$defs/uintString\" \x7d,",
   "        \"args\": \x7b",
   "          \"type\": \"array\",",
   "          \"items\": \x7b \"$ref\": \"#/$defs/valueDefinition\" \x7d",
   "        \x7d",
   "      \x7d",
   "    \x7d,",
   "    \"variable\": \x7b",
   "      \"type\": \"object\",",
   "      \"additionalProperties\": false,",
   "      \"required\": [\"name\", \"type\"],",
   "      \"properties\": \x7b",
   "        \"name\": \x7b \"$ref\": \"#/$defs/name\" \x7d,",
   "        \"type\": \x7b \"$ref\": \"#/$defs/variableType\" \x7d,",
   "        \"description\": \x7b \"type\": \"string\" \x7d,",
   "        \"constant\": \x7b \"type\": \"boolean\" \x7d,",
   "        \"initializable\": \x7b \"type\": \"boolean\" \x7d,",
   "        \"value\": \x7b \"type\": \"string\" \x7d,",
   "        \"fields\": \x7b",
   "          \"type\": \"array\",",
   "          \"items\": \x7b \"$ref\": \"#/$defs/fieldDefinition\" \x7d",
   "        \x7d",
   "      \x7d",
   "    \x7d,",
   "    \"enumEntry\": \x7b",
   "      \"type\": \"object\",",
   "      \"additionalProperties\": false,",
   "      \"required\": [\"name\", \"value\"],",
   "      \"properties\": \x7b",
   "        \"name\": \x7b \"$ref\": \"#/$defs/name\" \x7d,",
   "        \"value\": \x7b \"$ref\": \"#/$defs/uintString\" \x7d",
   "      \x7d",
   "    \x7d,",
   "    \"mapItem\": \x7b",
   "      \"type\": \"object\",",
   "      \"additionalProperties\": false,",
   "      \"required\": [\"name\"],",
   "      \"properties\": \x7b",
   "        \"name\": \x7b \"$ref\": \"#/$defs/name\" \x7d,",
   "        \"description\": \x7b \"type\": \"string\" \x7d,",
   "        \"type\": \x7b",
   "          \"anyOf\": [\x7b \"$ref\": \"#/$defs/scalarType\" \x7d, \x7b \"const\": \"enum\" \x7d]",
   "        \x7d,",
   "        \"constant\": \x7b \"type\": \"boolean\" \x7d,",
   "        \"value\": \x7b \"$ref\": \"#/$defs/uintString\" \x7d,",
   "        \"oneOf\": \x7b",
   "          \"type\": \"array\",",
   "          \"maxItems\": 10,",
   "          \"items\": \x7b \"$ref\": \"#/$defs/enumEntry\" \x7d",
   "        \x7d",
   "      \x7d",
   "    \x7d,",
   "    \"map\": \x7b",
   "      \"type\": \"object\",",
   "      \"additionalProperties\": false,",
   "      \"required\": [\"name\", \"key1\", \"key2\", \"value\"],",
   "      \"properties\": \x7b",
   "        \"name\": \x7b \"$ref\": \"#/$defs/name\" \x7d,",
   "        \"description\": \x7b \"type\": \"string\" \x7d,",
   "        \"key1\": \x7b \"$ref\": \"#/$defs/mapItem\" \x7d,",
   "        \"key2\": \x7b \"$ref\": \"#/$defs/mapItem\" \x7d,",
   "        \"value\": \x7b \"$ref\": \"#/$defs/mapItem\" \x7d",
   "      \x7d",
   "    \x7d,",
   "    \"transaction\": \x7b",
   "      \"type\": \"object\",",
   "      \"additionalProperties\": false,",
   "      \"required\": [\"name\", \"kind\"],",
   "      \"properties\": \x7b",
   "        \"name\": \x7b \"$ref\": \"#/$defs/name\" \x7d,",
   "        \"description\": \x7b \"type\": \"string\" \x7d,",
   "        \"kind\": \x7b",
   "          \"enum\": [",
   "            \"sendAmount\",",
   "            \"sendAmountAndMessage\",",
   "            \"sendMessage\",",
   "            \"sendQuantity\",",
   "            \"sendQuantityAndAmount\"",
   "          ]",
   "        \x7d",
   "      \x7d",
   "    \x7d",
   "  \x7d",
   "\x7d"]

def published : String := String.join (publishedLines.map (· ++ "\n"))

end SmartContract.Form
